import HeaderInterop.Proofs.Decl.Records
import HeaderInterop.Proofs.TypeMap.Acyclic

/-!
Typedefs of their own name. The tag that such a typedef names is printed like the typedef itself, so
it goes when the tag is found right in front of it. It stays when the tag is not there, because it
was not kept or did not convert, and is then a cycle of one typedef.
-/

namespace HeaderInterop

theorem CType.mentions_unqualified (type : CType) : type.unqualified.mentions = type.mentions := by
  induction type using unqualified.induct with
  | case1 _ inner ih => exact ih
  | case2 type hqualified =>
    cases type with
    | qualified qualifier inner => exact absurd rfl (hqualified qualifier inner)
    | _ => rfl

namespace Decl

open Ast (Node)

theorem isSelfTypedef_iff {naming : Typedef} :
    isSelfTypedef naming = true ↔ naming.underlying.unqualified = .typedef naming.name := by
  unfold isSelfTypedef
  split
  next name hname => simp [hname]
  next hother => simpa using hother naming.name

/-- With a typedef of its own name, the typedefs of a registry have a cycle. -/
theorem not_acyclic_of_isSelfTypedef {registry : Registry} {naming : Typedef}
    (hself : isSelfTypedef naming = true)
    (htypedef : registry.typedef? naming.name = some naming.underlying) : ¬ registry.Acyclic := by
  intro hacyclic
  have hmention : naming.name ∈ naming.underlying.mentions := by
    rw [← CType.mentions_unqualified, isSelfTypedef_iff.mp hself]
    exact List.mem_singleton_self _
  exact hacyclic naming.name (.single ⟨naming.underlying, htypedef, hmention⟩)

theorem namePair_eq_typedef {decl : Decl} {naming definition : Typedef} :
    (namePair decl naming).1 = .typedef definition ↔ decl = .typedef definition := by
  cases decl with
  | record | enum =>
    rw [namePair]
    split <;> simp
  | typedef | function => rfl

/-- The typedef of a pair is one of its own name only if the other declaration is no unnamed tag. -/
theorem isSelfTypedef_namePair {decl : Decl} {naming : Typedef} :
    isSelfTypedef (namePair decl naming).2 = true ↔
      isSelfTypedef naming = true ∧ ∀ kind, decl.tag? ≠ some (kind, none) := by
  by_cases h : ∃ kind, decl.tag? = some (kind, none) ∧ namesKind naming kind = true
  · obtain ⟨kind, htag, hnames⟩ := h
    simp [(namePair_of_namesKind htag hnames).2, htag]
  · have hnot (kind : TagKind) (htag : decl.tag? = some (kind, none)) :
        namesKind naming kind = false :=
      Bool.eq_false_iff.mpr fun hnames => h ⟨kind, htag, hnames⟩
    rw [namePair_of_not_namesKind hnot]
    refine ⟨fun hself => ⟨hself, fun kind htag => ?_⟩, And.left⟩
    exact h ⟨kind, htag, namesKind_of_isSelfTypedef hself kind⟩

/-- Naming leaves the typedefs of their own name that have no unnamed tag right in front of them. -/
theorem mem_nameTags_of_isSelfTypedef {decls : List Decl} {definition : Typedef}
    (hself : isSelfTypedef definition = true) :
    .typedef definition ∈ nameTags decls ↔
      ∃ before after, decls = before ++ .typedef definition :: after ∧
        ∀ kind, before.getLast?.bind tag? ≠ some (kind, none) := by
  constructor
  · intro hmem
    induction decls using naming_induction with
    | nil => simp [nameTags] at hmem
    | single decl =>
      rw [nameTags_singleton, List.mem_singleton] at hmem
      exact ⟨[], [], by rw [hmem]; rfl, by simp⟩
    | pair decl naming rest ih =>
      rw [nameTags_pair, List.mem_cons, List.mem_cons] at hmem
      rcases hmem with hfirst | hsecond | hrest
      · rw [namePair_eq_typedef.mp hfirst.symm]
        exact ⟨[], .typedef naming :: rest, rfl, by simp⟩
      · have hnamed := Decl.typedef.inj hsecond
        obtain ⟨-, htag⟩ := isSelfTypedef_namePair.mp (hnamed ▸ hself)
        rw [namePair_of_not_unnamed htag] at hnamed
        exact ⟨[decl], rest, by rw [hnamed]; rfl, htag⟩
      · obtain ⟨before, after, rfl, hlast⟩ := ih hrest
        refine ⟨decl :: .typedef naming :: before, after, rfl, ?_⟩
        cases before with
        | nil => simp [tag?]
        | cons => rwa [List.getLast?_cons_cons, List.getLast?_cons_cons]
    | apart decl next rest hnext ih =>
      rw [nameTags_cons rest hnext, List.mem_cons] at hmem
      rcases hmem with hfirst | hrest
      · exact ⟨[], next :: rest, by rw [hfirst]; rfl, by simp⟩
      · obtain ⟨before, after, hrest, hlast⟩ := ih hrest
        refine ⟨decl :: before, after, by rw [hrest]; rfl, ?_⟩
        cases before with
        | nil => exact absurd (List.cons.inj hrest).1 (hnext definition)
        | cons => rwa [List.getLast?_cons_cons]
  · rintro ⟨before, after, rfl, hlast⟩
    rw [nameTags_append, nameTags_typedef]
    · exact List.mem_append_right _ (List.mem_cons_self ..)
    · intro last naming hend _
      rw [hend] at hlast
      exact namePair_of_not_unnamed hlast

/-- A typedef of its own name is among the declarations exactly when one of the kept nodes declares
it and the last declaration that the nodes before it convert to is no unnamed record or enum. -/
theorem selfTypedef_mem_extract_iff (keep : Node → Bool) (nodes : List Node)
    (definition : Typedef) :
    .typedef definition ∈ (Header.extract keep nodes).value ∧
        definition.underlying.unqualified = .typedef definition.name ↔
      definition.underlying.unqualified = .typedef definition.name ∧
        ∃ before node after, nodes.filter keep = before ++ node :: after ∧
          declared? node = some (.typedef definition) ∧
          ∀ kind, (ofNodes before).value.getLast?.bind tag? ≠ some (kind, none) := by
  rw [and_comm, ← isSelfTypedef_iff]
  refine and_congr_right fun hself => (mem_nameTags_of_isSelfTypedef hself).trans ?_
  constructor
  · rintro ⟨before, after, hdecls, hlast⟩
    obtain ⟨front, node, back, hnodes, rfl, hnode, -⟩ := ofNodes_eq_append_cons.mp hdecls
    exact ⟨front, node, back, hnodes, hnode, hlast⟩
  · rintro ⟨before, node, after, hnodes, hnode, hlast⟩
    have hdecls := ofNodes_eq_append_cons.mpr ⟨before, node, after, hnodes, rfl, hnode, rfl⟩
    exact ⟨(ofNodes before).value, (ofNodes after).value, hdecls, hlast⟩

/-- An unnamed record with a bit-field, and the typedef that names it. -/
def skippedTag : List Node :=
  [.mk (.record none none (some "struct") true) [.mk (.field none (some "on") "int" true) []],
    .mk (.typedef none "Flags" "Flags") []]

def ownNamed : Typedef := ⟨"Flags", CType.typedef "Flags"⟩

theorem ofNodes_skippedTag : (ofNodes skippedTag).value = [.typedef ownNamed] := by
  have htype : parseType "Flags" = .ok ownNamed.underlying :=
    parseType_of_print (by decide +kernel) (by decide +kernel)
  have hnaming : declared? (.mk (.typedef none "Flags" "Flags") []) = some (.typedef ownNamed) := by
    rw [declared?_eq_some]
    exact except_map_eq_ok.mpr ⟨_, htype, rfl⟩
  rw [ofNodes_value, skippedTag, List.filterMap_cons_none rfl, List.filterMap_cons_some hnaming]
  rfl

/-- The record does not convert, and the typedef is left with its own name. -/
theorem selfTypedef_mem_skippedTag :
    .typedef ownNamed ∈ (Header.extract (fun _ => true) skippedTag).value ∧
      ownNamed.underlying.unqualified = .typedef ownNamed.name ∧
      ¬ (Registry.registerAll [⟨"/include/a.h", [],
        (Header.extract (fun _ => true) skippedTag).value, []⟩]).Acyclic := by
  have hdecls : (Header.extract (fun _ => true) skippedTag).value = [.typedef ownNamed] := by
    have hkept : skippedTag.filter (fun _ => true) = skippedTag := rfl
    rw [Header.extract, hkept, ofNodes_skippedTag]
    exact nameTags_singleton _
  have hself : isSelfTypedef ownNamed = true := rfl
  rw [hdecls]
  exact ⟨List.mem_singleton_self _, rfl, not_acyclic_of_isSelfTypedef hself rfl⟩

end Decl

end HeaderInterop
