import HeaderInterop.Header
import HeaderInterop.Proofs.Decl.Records

/-!
Names that are taken. A typedef names the unnamed tag in front of it also when it is printed with a
tag of its own name, and declarations are neighbours once the nodes between them have gone. So the
tag may get the name of another one, whose typedef it is.
-/

namespace HeaderInterop.Decl

open Ast (Node)

/-- Naming gives an unnamed tag a name that another tag of its kind has. -/
def GivesTakenName (decls named : List Decl) : Prop :=
  ∃ (place : Nat) (kind : TagKind) (name : String),
    decls[place]?.bind tag? = some (kind, none) ∧
      named[place]?.bind tag? = some (kind, some name) ∧
      ∃ other ∈ named.eraseIdx place, other.tag? = some (kind, some name)

/-- The declaration is an unnamed tag of the kind that the typedef gives the name to. -/
def GetsName (kind : TagKind) (name : String) (decl : Decl) (naming : Typedef) : Prop :=
  decl.tag? = some (kind, none) ∧ namesKind naming kind = true ∧ naming.name = name

/-- A tag of the kind has the name, or gets it from the typedef right behind it. -/
def Bears (kind : TagKind) (name : String) (decls : List Decl) : Prop :=
  (∃ decl ∈ decls, decl.tag? = some (kind, some name)) ∨ GetsAmong (GetsName kind name) decls

theorem exists_mem_nameTags_iff_bears {kind : TagKind} {name : String} (decls : List Decl) :
    (∃ decl ∈ nameTags decls, decl.tag? = some (kind, some name)) ↔ Bears kind name decls :=
  exists_mem_nameTags_iff (fun _ _ => tag?_namePair) (fun _ => by simp [tag?]) decls

/-- Naming begins anew at a tag. -/
theorem nameTags_append_tag {before after : List Decl} {decl : Decl}
    {tag : TagKind × Option String} (htag : decl.tag? = some tag) :
    nameTags (before ++ decl :: after) = nameTags before ++ nameTags (decl :: after) := by
  refine nameTags_append fun _ naming _ htypedef => ?_
  rw [htypedef] at htag
  cases htag

theorem exists_append_of_getElem? {α : Type} {list : List α} {place : Nat} {found : α}
    (h : list[place]? = some found) :
    ∃ before after, list = before ++ found :: after ∧ before.length = place := by
  obtain ⟨hplace, rfl⟩ := List.getElem?_eq_some_iff.mp h
  refine ⟨list.take place, list.drop (place + 1), ?_, ?_⟩
  · rw [List.getElem_cons_drop, List.take_append_drop]
  · rw [List.length_take]
    omega

/-- A tag that gets a name gets it from a typedef right behind it. -/
theorem tag?_head_nameTags {decl : Decl} {rest : List Decl} {kind : TagKind} {name : String}
    (htag : decl.tag? = some (kind, none))
    (hnamed : (nameTags (decl :: rest))[0]?.bind tag? = some (kind, some name)) :
    ∃ naming after, rest = .typedef naming :: after ∧ GetsName kind name decl naming := by
  have hunnamed : decl.tag? ≠ some (kind, some name) := by
    rw [htag]
    simp
  cases rest with
  | nil =>
    rw [nameTags_singleton] at hnamed
    exact absurd hnamed hunnamed
  | cons next after =>
    by_cases htypedef : ∃ naming, next = .typedef naming
    · obtain ⟨naming, rfl⟩ := htypedef
      rw [nameTags_pair] at hnamed
      rcases tag?_namePair.mp hnamed with hhad | hgets
      · exact absurd hhad hunnamed
      · exact ⟨naming, after, rfl, hgets⟩
    · rw [nameTags_cons after fun naming hnaming => htypedef ⟨naming, hnaming⟩] at hnamed
      exact absurd hnamed hunnamed

theorem givesTakenName_nameTags_iff (decls : List Decl) :
    GivesTakenName decls (nameTags decls) ↔
      ∃ before decl naming after kind, decls = before ++ decl :: .typedef naming :: after ∧
        decl.tag? = some (kind, none) ∧ namesKind naming kind = true ∧
        (Bears kind naming.name before ∨ Bears kind naming.name after) := by
  -- The tag is at the same place of both lists, since the ones before it are as many as before.
  have hothers {kind : TagKind} {before after : List Decl} {decl : Decl} {naming : Typedef}
      (htag : decl.tag? = some (kind, none)) :
      (∃ other ∈ (nameTags (before ++ decl :: .typedef naming :: after)).eraseIdx before.length,
          other.tag? = some (kind, some naming.name)) ↔
        Bears kind naming.name before ∨ Bears kind naming.name after := by
    rw [nameTags_append_tag htag, nameTags_pair, ← length_nameTags before,
      List.eraseIdx_append_of_length_le (Nat.le_refl _), Nat.sub_self, List.eraseIdx_cons_zero,
      ← exists_mem_nameTags_iff_bears, ← exists_mem_nameTags_iff_bears]
    simp [or_and_right, exists_or, tag?]
  constructor
  · rintro ⟨place, kind, name, hunnamed, hnamed, hother⟩
    obtain ⟨decl, hdecl, htag⟩ := Option.bind_eq_some_iff.mp hunnamed
    obtain ⟨before, rest, rfl, rfl⟩ := exists_append_of_getElem? hdecl
    rw [nameTags_append_tag htag, ← length_nameTags before,
      List.getElem?_append_right (Nat.le_refl _), Nat.sub_self] at hnamed
    obtain ⟨naming, after, rfl, hgets⟩ := tag?_head_nameTags htag hnamed
    obtain ⟨-, hnames, rfl⟩ := hgets
    exact ⟨before, decl, naming, after, kind, rfl, htag, hnames, (hothers htag).mp hother⟩
  · rintro ⟨before, decl, naming, after, kind, rfl, htag, hnames, hbears⟩
    refine ⟨before.length, kind, naming.name, ?_, ?_, (hothers htag).mpr hbears⟩
    · rw [List.getElem?_append_right (Nat.le_refl _), Nat.sub_self]
      exact htag
    · rw [nameTags_append_tag htag, ← length_nameTags before,
        List.getElem?_append_right (Nat.le_refl _), Nat.sub_self, nameTags_pair]
      exact (namePair_of_namesKind htag hnames).1

/-- Naming gives an unnamed tag a name that another tag of its kind has exactly when the next kept
node that declares anything is a typedef that names such a tag, and the name is that of a tag of the
kind, its own or given, among the declarations before the two or behind them. -/
theorem extract_givesTakenName_iff (keep : Node → Bool) (nodes : List Node) :
    GivesTakenName (ofNodes (nodes.filter keep)).value (Header.extract keep nodes).value ↔
      ∃ before tag between typedef after,
        nodes.filter keep = before ++ tag :: between ++ typedef :: after ∧
          (∀ node ∈ between, declared? node = none) ∧
          ∃ decl naming kind, declared? tag = some decl ∧ decl.tag? = some (kind, none) ∧
            declared? typedef = some (.typedef naming) ∧ namesKind naming kind = true ∧
            (Bears kind naming.name (ofNodes before).value ∨
              Bears kind naming.name (ofNodes after).value) := by
  refine (givesTakenName_nameTags_iff _).trans ?_
  constructor
  · rintro ⟨before, decl, naming, after, kind, hdecls, htag, hnames, hbears⟩
    obtain ⟨front, tag, rest, hnodes, rfl, hdecl, hrest⟩ := ofNodes_eq_append_cons.mp hdecls
    rw [ofNodes_value] at hrest
    obtain ⟨between, typedef, back, rfl, hbetween, hnaming, rfl⟩ :=
      List.filterMap_eq_cons_iff.mp hrest
    rw [← ofNodes_value] at hbears
    exact ⟨front, tag, between, typedef, back, by simp [hnodes], hbetween, decl, naming, kind,
      hdecl, htag, hnaming, hnames, hbears⟩
  · rintro ⟨before, tag, between, typedef, after, hnodes, hbetween, decl, naming, kind, hdecl, htag,
      hnaming, hnames, hbears⟩
    have hrest : (ofNodes (between ++ typedef :: after)).value =
        .typedef naming :: (ofNodes after).value := by
      rw [ofNodes_value, ofNodes_value, List.filterMap_append,
        List.filterMap_eq_nil_iff.mpr hbetween, List.filterMap_cons_some hnaming, List.nil_append]
    rw [List.append_assoc] at hnodes
    have hdecls := ofNodes_eq_append_cons.mpr ⟨before, tag, _, hnodes, rfl, hdecl, hrest⟩
    exact ⟨_, decl, naming, _, kind, hdecls, htag, hnames, hbears⟩

/-- A declaration of `struct F`, a variable of an unnamed struct, and a typedef of `struct F`. -/
def unrelatedTag : List Node :=
  [.mk (.record none (some "F") (some "struct") false) [],
    .mk (.record none none (some "struct") true) [.mk (.field none (some "y") "int" false) []],
    .mk (.other (some "VarDecl")) [],
    .mk (.typedef none "F" "struct F") []]

def forwardTag : Decl := .record ⟨some "F", .struct, false, []⟩

/-- A struct with the one field. -/
def heldTag (name : Option String) : Decl :=
  .record ⟨name, .struct, true, [⟨"y", .primitive .int, none⟩]⟩

def tagTypedef : Typedef := ⟨"F", .record .struct (some "F")⟩

theorem ofNodes_unrelatedTag :
    (ofNodes unrelatedTag).value = [forwardTag, heldTag none, .typedef tagTypedef] := by
  have hint : parseType "int" = .ok (.primitive .int) :=
    parseType_of_print (by decide +kernel) (by decide +kernel)
  have hstruct : parseType "struct F" = .ok (.record .struct (some "F")) :=
    parseType_of_print (by decide +kernel) (by decide +kernel)
  have hheld : declared? (.mk (.record none none (some "struct") true)
      [.mk (.field none (some "y") "int" false) []]) = some (heldTag none) := by
    refine declared?_eq_some.mpr (ofNode?_eq_record.mpr ⟨none, none, some "struct", true, rfl, ?_⟩)
    simp only [recordOf, fieldsOf, Node.kind, hint]
    rfl
  have hnaming : declared? (.mk (.typedef none "F" "struct F") []) = some (.typedef tagTypedef) := by
    rw [declared?_eq_some]
    exact except_map_eq_ok.mpr ⟨_, hstruct, rfl⟩
  have hforward : declared? (.mk (.record none (some "F") (some "struct") false) []) =
      some forwardTag := rfl
  rw [ofNodes_value, unrelatedTag, List.filterMap_cons_some hforward,
    List.filterMap_cons_some hheld, List.filterMap_cons_none rfl,
    List.filterMap_cons_some hnaming]
  rfl

/-- The unnamed struct gets the name of the one that was declared, and is complete. -/
theorem givesTakenName_unrelatedTag :
    (Header.extract (fun _ => true) unrelatedTag).value =
        [forwardTag, heldTag (some "F"), .typedef tagTypedef] ∧
      GivesTakenName (ofNodes (unrelatedTag.filter fun _ => true)).value
        (Header.extract (fun _ => true) unrelatedTag).value := by
  have hkept : (unrelatedTag.filter fun _ => true) = unrelatedTag := rfl
  have hnamed : (Header.extract (fun _ => true) unrelatedTag).value =
      [forwardTag, heldTag (some "F"), .typedef tagTypedef] := by
    have hnext (naming : Typedef) : heldTag none ≠ .typedef naming := by simp [heldTag]
    have hempty : nameTags [] = [] := List.eq_nil_of_length_eq_zero (length_nameTags [])
    rw [Header.extract, hkept, ofNodes_unrelatedTag]
    change nameTags _ = _
    rw [nameTags_cons _ hnext, nameTags_pair, hempty]
    rfl
  refine ⟨hnamed, ?_⟩
  rw [hnamed, hkept, ofNodes_unrelatedTag]
  exact ⟨1, .record, "F", rfl, rfl, forwardTag, List.mem_cons_self .., rfl⟩

end HeaderInterop.Decl
