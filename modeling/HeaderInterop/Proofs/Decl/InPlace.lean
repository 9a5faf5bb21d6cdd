import HeaderInterop.Proofs.Decl.TakenNames
import HeaderInterop.Proofs.Decl.SelfTypedefs

/-!
Naming in place. The pairs of an unnamed tag and the typedef that names it have no declaration in
common, so the names can be told from the list as it was before any was given: both declarations of
a pair are replaced where they stand, and every other one is left as it is.
-/

namespace HeaderInterop.Decl

/-- A typedef names the unnamed tag in front of it. It is printed as a typedef of its own name or
as a tag of the same kind, which is unnamed or has the name already. -/
inductive Names : Decl → Typedef → Decl → Typedef → Prop where
  | record {definition : Record} {naming : Typedef} (unnamed : definition.name = none)
      (refers : naming.underlying.unqualified = .typedef naming.name ∨
        ∃ kind tag, naming.underlying.unqualified = .record kind tag ∧
          (tag = none ∨ tag = some naming.name)) :
      Names (.record definition) naming (.record { definition with name := some naming.name })
        { naming with underlying := .record definition.kind (some naming.name) }
  | enum {definition : Enumeration} {naming : Typedef} (unnamed : definition.name = none)
      (refers : naming.underlying.unqualified = .typedef naming.name ∨
        ∃ tag, naming.underlying.unqualified = .enum tag ∧
          (tag = none ∨ tag = some naming.name)) :
      Names (.enum definition) naming (.enum { definition with name := some naming.name })
        { naming with underlying := .enum (some naming.name) }

theorem namesTag_iff {naming : Typedef} {tag : Option String} :
    namesTag naming tag = true ↔ tag = none ∨ tag = some naming.name := by
  cases tag <;> simp [namesTag]

theorem namesRecord_iff {naming : Typedef} :
    namesRecord naming = true ↔ naming.underlying.unqualified = .typedef naming.name ∨
      ∃ kind tag, naming.underlying.unqualified = .record kind tag ∧
        (tag = none ∨ tag = some naming.name) := by
  rw [namesRecord, Bool.or_eq_true, isSelfTypedef_iff]
  cases naming.underlying.unqualified with
  | record kind tag => simp [namesTag_iff]
  | _ => simp

theorem namesEnum_iff {naming : Typedef} :
    namesEnum naming = true ↔ naming.underlying.unqualified = .typedef naming.name ∨
      ∃ tag, naming.underlying.unqualified = .enum tag ∧
        (tag = none ∨ tag = some naming.name) := by
  rw [namesEnum, Bool.or_eq_true, isSelfTypedef_iff]
  cases naming.underlying.unqualified with
  | enum tag => simp [namesTag_iff]
  | _ => simp

theorem Names.tag? {decl named : Decl} {naming renamed : Typedef}
    (h : Names decl naming named renamed) : ∃ kind, decl.tag? = some (kind, none) := by
  cases h with
  | record unnamed refers => exact ⟨.record, by rw [Decl.tag?, unnamed]⟩
  | enum unnamed refers => exact ⟨.enum, by rw [Decl.tag?, unnamed]⟩

theorem Names.namePair_eq {decl named : Decl} {naming renamed : Typedef}
    (h : Names decl naming named renamed) : namePair decl naming = (named, renamed) := by
  cases h with
  | record unnamed refers => simp [namePair, unnamed, namesRecord_iff.mpr refers]
  | enum unnamed refers => simp [namePair, unnamed, namesEnum_iff.mpr refers]

theorem namePair_of_not_names {decl : Decl} {naming : Typedef}
    (h : ∀ named renamed, ¬ Names decl naming named renamed) :
    namePair decl naming = (decl, naming) := by
  refine namePair_of_not_namesKind fun kind htag => Bool.eq_false_iff.mpr fun hnames => ?_
  cases decl with
  | record definition =>
    obtain ⟨rfl, hnone⟩ : .record = kind ∧ definition.name = none := by simpa [Decl.tag?] using htag
    exact h _ _ (.record hnone (namesRecord_iff.mp hnames))
  | enum definition =>
    obtain ⟨rfl, hnone⟩ : .enum = kind ∧ definition.name = none := by simpa [Decl.tag?] using htag
    exact h _ _ (.enum hnone (namesEnum_iff.mp hnames))
  | typedef | function => cases htag

/-- At the place stands an unnamed tag, and right behind it the typedef that names it; `named` and
`renamed` are what the two become. -/
def PairAt (decls : List Decl) (place : Nat) (named : Decl) (renamed : Typedef) : Prop :=
  ∃ decl naming, decls[place]? = some decl ∧ decls[place + 1]? = some (.typedef naming) ∧
    Names decl naming named renamed

/-- The declarations with the pairs among them named, all the others unchanged. -/
structure NamedInPlace (decls named : List Decl) : Prop where
  length : named.length = decls.length
  pair : ∀ place tag renamed, PairAt decls place tag renamed →
    named[place]? = some tag ∧ named[place + 1]? = some (.typedef renamed)
  other : ∀ place, (∀ tag renamed, ¬ PairAt decls place tag renamed) →
    (∀ before, place = before + 1 → ∀ tag renamed, ¬ PairAt decls before tag renamed) →
    named[place]? = decls[place]?

theorem getElem?_length_add {α : Type} (before after : List α) (offset : Nat) :
    (before ++ after)[before.length + offset]? = after[offset]? := by
  rw [List.getElem?_append_right (Nat.le_add_right _ _), Nat.add_sub_cancel_left]

/-- A declaration that the next one does not name is left as it is. -/
theorem nameTags_cons_of_not_named {decl : Decl} {rest : List Decl}
    (h : ∀ naming after, rest = .typedef naming :: after → namePair decl naming = (decl, naming)) :
    nameTags (decl :: rest) = decl :: nameTags rest := by
  cases rest with
  | nil => rw [nameTags_singleton, nameTags]
  | cons next after =>
    have happend : nameTags ([decl] ++ next :: after) =
        nameTags [decl] ++ nameTags (next :: after) :=
      nameTags_append fun last naming hlast htypedef => by
        cases hlast
        exact h naming after (by rw [htypedef])
    rwa [nameTags_singleton] at happend

theorem namedInPlace_nameTags (decls : List Decl) : NamedInPlace decls (nameTags decls) where
  length := length_nameTags decls
  pair := by
    rintro place named renamed ⟨decl, naming, hdecl, hnaming, hnames⟩
    obtain ⟨before, rest, rfl, rfl⟩ := exists_append_of_getElem? hdecl
    rw [getElem?_length_add] at hnaming
    obtain ⟨after, rfl⟩ : ∃ after, rest = .typedef naming :: after := by
      cases rest with
      | nil => cases hnaming
      | cons next after => exact ⟨after, by rw [Option.some.inj hnaming]⟩
    obtain ⟨kind, htag⟩ := hnames.tag?
    rw [nameTags_append_tag htag, nameTags_pair, hnames.namePair_eq, ← length_nameTags before]
    exact ⟨getElem?_length_add _ _ 0, getElem?_length_add _ _ 1⟩
  other := by
    intro place hpair hbehind
    cases hplace : decls[place]? with
    | none =>
      rw [List.getElem?_eq_none_iff] at hplace ⊢
      rwa [length_nameTags]
    | some decl =>
      obtain ⟨before, rest, rfl, rfl⟩ := exists_append_of_getElem? hplace
      -- Neither the declaration before this one nor the one behind it is named together with it.
      have hbefore : nameTags (before ++ decl :: rest) =
          nameTags before ++ nameTags (decl :: rest) := by
        refine nameTags_append fun last naming hlast htypedef => namePair_of_not_names ?_
        intro named renamed hnames
        obtain ⟨front, rfl⟩ := List.getLast?_eq_some_iff.mp hlast
        refine hbehind front.length (by simp) named renamed
          ⟨last, naming, ?_, ?_, hnames⟩
        · rw [List.append_assoc]
          exact getElem?_length_add front _ 0
        · rw [List.append_assoc, htypedef]
          exact getElem?_length_add front _ 1
      have hrest : nameTags (decl :: rest) = decl :: nameTags rest := by
        refine nameTags_cons_of_not_named fun naming after hrest => namePair_of_not_names ?_
        intro named renamed hnames
        refine hpair named renamed ⟨decl, naming, hplace, ?_, hnames⟩
        rw [hrest]
        exact getElem?_length_add before _ 1
      rw [hbefore, hrest, ← length_nameTags before]
      exact getElem?_length_add _ _ 0

theorem namePair_namePair (decl : Decl) (naming : Typedef) :
    namePair (namePair decl naming).1 (namePair decl naming).2 = namePair decl naming := by
  by_cases h : ∃ named renamed, Names decl naming named renamed
  · obtain ⟨named, renamed, hnames⟩ := h
    rw [hnames.namePair_eq]
    refine namePair_of_not_unnamed fun kind => ?_
    cases hnames with
    | record | enum => simp [Decl.tag?]
  · have hunchanged : namePair decl naming = (decl, naming) :=
      namePair_of_not_names fun named renamed hnames => h ⟨named, renamed, hnames⟩
    rw [hunchanged, hunchanged]

theorem eq_typedef_of_nameTags {decl : Decl} {rest after : List Decl} {naming : Typedef}
    (h : nameTags (decl :: rest) = .typedef naming :: after) : decl = .typedef naming := by
  cases rest with
  | nil =>
    rw [nameTags_singleton] at h
    exact (List.cons.inj h).1
  | cons next rest =>
    by_cases htypedef : ∃ other, next = .typedef other
    · obtain ⟨other, rfl⟩ := htypedef
      rw [nameTags_pair] at h
      exact namePair_eq_typedef.mp (List.cons.inj h).1
    · rw [nameTags_cons rest fun other hother => htypedef ⟨other, hother⟩] at h
      exact (List.cons.inj h).1

theorem nameTags_nameTags (decls : List Decl) : nameTags (nameTags decls) = nameTags decls := by
  induction decls using naming_induction with
  | nil => simp [nameTags]
  | single decl => rw [nameTags_singleton, nameTags_singleton]
  | pair decl naming rest ih => rw [nameTags_pair, nameTags_pair, namePair_namePair, ih]
  | apart decl next rest hnext ih =>
    rw [nameTags_cons rest hnext, nameTags_cons_of_not_named, ih]
    intro naming after hnamed
    exact absurd (eq_typedef_of_nameTags hnamed) (hnext naming)

end HeaderInterop.Decl
