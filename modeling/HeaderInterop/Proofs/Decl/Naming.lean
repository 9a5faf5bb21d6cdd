import HeaderInterop.Decl.Naming

/-!
Naming of unnamed tags. A typedef takes part in one pair at most, the one with the declaration
before it, and what it becomes there names nothing else.
-/

namespace HeaderInterop.Decl

/-- Whether the declaration is a complete record of the name. -/
def defines (name : String) : Decl → Bool
  | .record definition => definition.name = some name && definition.complete
  | _ => false

/-- Whether the declaration is a complete record that gets the name from the typedef behind it. -/
def definesBy (naming : Typedef) (name : String) : Decl → Bool
  | .record definition =>
    definition.name.isNone && definition.complete && namesRecord naming && naming.name = name
  | _ => false

theorem namePair_typedef (definition naming : Typedef) :
    namePair (.typedef definition) naming = (.typedef definition, naming) :=
  rfl

theorem defines_namePair (decl : Decl) (naming : Typedef) (name : String) :
    (namePair decl naming).1.defines name = (decl.defines name || decl.definesBy naming name) := by
  cases decl with
  | record definition =>
    simp only [namePair]
    by_cases h : (definition.name.isNone && namesRecord naming) = true
    · obtain ⟨hnone, hnames⟩ := Bool.and_eq_true_iff.mp h
      rw [if_pos h]
      rw [Option.isNone_iff_eq_none] at hnone
      simp [defines, definesBy, hnone, hnames, Bool.and_comm]
    · rw [if_neg h]
      have hby : definesBy naming name (.record definition) = false := by
        simp only [definesBy]
        cases hnone : definition.name.isNone <;> simp_all
      rw [hby, Bool.or_false]
  | enum definition =>
    simp only [namePair]
    split <;> rfl
  | typedef | function => rfl

/-! Tags -/

/-- A record and an enum may have the same name, so there are two kinds of tag. -/
inductive TagKind where
  | record
  | enum
deriving DecidableEq, Repr

/-- The kind of the tag that is declared, and its name unless it is unnamed. -/
def tag? : Decl → Option (TagKind × Option String)
  | .record definition => some (.record, definition.name)
  | .enum definition => some (.enum, definition.name)
  | .typedef _ | .function _ => none

/-- Whether the typedef names an unnamed tag of the kind right in front of it. -/
def namesKind (naming : Typedef) : TagKind → Bool
  | .record => namesRecord naming
  | .enum => namesEnum naming

theorem namesKind_of_isSelfTypedef {naming : Typedef} (h : isSelfTypedef naming = true)
    (kind : TagKind) : namesKind naming kind = true := by
  cases kind <;> simp [namesKind, namesRecord, namesEnum, h]

theorem namePair_of_namesKind {decl : Decl} {naming : Typedef} {kind : TagKind}
    (htag : decl.tag? = some (kind, none)) (hnames : namesKind naming kind = true) :
    (namePair decl naming).1.tag? = some (kind, some naming.name) ∧
      isSelfTypedef (namePair decl naming).2 = false := by
  cases decl with
  | record definition =>
    obtain ⟨rfl, hnone⟩ : .record = kind ∧ definition.name = none := by simpa [tag?] using htag
    have hpair : (definition.name.isNone && namesRecord naming) = true := by
      rw [hnone]
      exact hnames
    rw [namePair, if_pos hpair]
    exact ⟨rfl, rfl⟩
  | enum definition =>
    obtain ⟨rfl, hnone⟩ : .enum = kind ∧ definition.name = none := by simpa [tag?] using htag
    have hpair : (definition.name.isNone && namesEnum naming) = true := by
      rw [hnone]
      exact hnames
    rw [namePair, if_pos hpair]
    exact ⟨rfl, rfl⟩
  | typedef | function => cases htag

theorem namePair_of_not_namesKind {decl : Decl} {naming : Typedef}
    (h : ∀ kind, decl.tag? = some (kind, none) → namesKind naming kind = false) :
    namePair decl naming = (decl, naming) := by
  cases decl with
  | record definition =>
    have hpair : (definition.name.isNone && namesRecord naming) = false := by
      rw [Bool.and_eq_false_imp, Option.isNone_iff_eq_none]
      intro hnone
      exact h .record (by rw [tag?, hnone])
    rw [namePair, hpair]
    rfl
  | enum definition =>
    have hpair : (definition.name.isNone && namesEnum naming) = false := by
      rw [Bool.and_eq_false_imp, Option.isNone_iff_eq_none]
      intro hnone
      exact h .enum (by rw [tag?, hnone])
    rw [namePair, hpair]
    rfl
  | typedef | function => rfl

theorem namePair_of_not_unnamed {decl : Decl} {naming : Typedef}
    (h : ∀ kind, decl.tag? ≠ some (kind, none)) : namePair decl naming = (decl, naming) :=
  namePair_of_not_namesKind fun kind htag => absurd htag (h kind)

/-- A tag has a name behind naming if it had it before, or gets it from the typedef. -/
theorem tag?_namePair {decl : Decl} {naming : Typedef} {kind : TagKind} {name : String} :
    (namePair decl naming).1.tag? = some (kind, some name) ↔
      decl.tag? = some (kind, some name) ∨
        decl.tag? = some (kind, none) ∧ namesKind naming kind = true ∧ naming.name = name := by
  by_cases h : ∃ kind, decl.tag? = some (kind, none) ∧ namesKind naming kind = true
  · obtain ⟨found, htag, hnames⟩ := h
    rw [(namePair_of_namesKind htag hnames).1, htag]
    constructor
    · intro hnamed
      cases hnamed
      exact Or.inr ⟨rfl, hnames, rfl⟩
    · rintro (hnamed | ⟨hkind, -, rfl⟩)
      · cases hnamed
      · cases hkind
        rfl
  · have hnot (found : TagKind) (htag : decl.tag? = some (found, none)) :
        namesKind naming found = false :=
      Bool.eq_false_iff.mpr fun hnames => h ⟨found, htag, hnames⟩
    rw [namePair_of_not_namesKind hnot]
    refine ⟨Or.inl, ?_⟩
    rintro (hnamed | ⟨htag, hnames, -⟩)
    · exact hnamed
    · exact absurd ⟨kind, htag, hnames⟩ h

theorem nameTags_typedef (definition : Typedef) (rest : List Decl) :
    nameTags (.typedef definition :: rest) = .typedef definition :: nameTags rest := by
  cases rest with
  | nil => simp [nameTags]
  | cons next rest =>
    cases next with
    | typedef => rw [nameTags, namePair_typedef]
    | record | enum | function => rw [nameTags]; simp

/-- The typedef of a pair is not the first of another one. -/
theorem nameTags_pair (decl : Decl) (naming : Typedef) (rest : List Decl) :
    nameTags (decl :: .typedef naming :: rest) =
      (namePair decl naming).1 :: .typedef (namePair decl naming).2 :: nameTags rest := by
  rw [nameTags, nameTags_typedef]

theorem nameTags_cons {decl next : Decl} (rest : List Decl) (h : ∀ naming, next ≠ .typedef naming) :
    nameTags (decl :: next :: rest) = decl :: nameTags (next :: rest) := by
  cases next with
  | typedef naming => exact absurd rfl (h naming)
  | record | enum | function => rw [nameTags]; simp

theorem nameTags_singleton (decl : Decl) : nameTags [decl] = [decl] := by
  simp [nameTags]

/-- Declarations in the order in which they are named: naming begins anew behind a typedef and the
declaration right in front of it, and else behind the first declaration. -/
@[elab_as_elim]
theorem naming_induction {motive : List Decl → Prop} (nil : motive [])
    (single : ∀ decl, motive [decl])
    (pair : ∀ decl naming rest, motive rest → motive (decl :: .typedef naming :: rest))
    (apart : ∀ decl next rest, (∀ naming, next ≠ .typedef naming) → motive (next :: rest) →
      motive (decl :: next :: rest))
    (decls : List Decl) : motive decls := by
  match decls with
  | [] => exact nil
  | [decl] => exact single decl
  | decl :: next :: rest =>
    by_cases h : ∃ naming, next = .typedef naming
    · obtain ⟨naming, rfl⟩ := h
      exact pair decl naming rest (naming_induction nil single pair apart rest)
    · have hnext : ∀ naming, next ≠ .typedef naming := fun naming hnaming => h ⟨naming, hnaming⟩
      exact apart decl next rest hnext (naming_induction nil single pair apart (next :: rest))
  termination_by decls.length

theorem length_nameTags (decls : List Decl) : (nameTags decls).length = decls.length := by
  induction decls using naming_induction with
  | nil => simp [nameTags]
  | single decl => rw [nameTags_singleton]
  | pair decl naming rest ih => simp [nameTags_pair, ih]
  | apart decl next rest hnext ih => simp [nameTags_cons rest hnext, ih]

/-- Naming begins anew where the declarations on both sides are no pair of a tag and its name. -/
theorem nameTags_append {before after : List Decl} {decl : Decl}
    (h : ∀ last naming, before.getLast? = some last → decl = .typedef naming →
      namePair last naming = (last, naming)) :
    nameTags (before ++ decl :: after) = nameTags before ++ nameTags (decl :: after) := by
  induction before using naming_induction with
  | nil => simp [nameTags]
  | single first =>
    rw [List.singleton_append, nameTags_singleton, List.singleton_append]
    by_cases htypedef : ∃ naming, decl = .typedef naming
    · obtain ⟨naming, rfl⟩ := htypedef
      rw [nameTags_pair, h first naming rfl rfl, nameTags_typedef]
    · exact nameTags_cons after fun naming hnaming => htypedef ⟨naming, hnaming⟩
  | pair first naming rest ih =>
    have hrest := ih fun last other hlast => h last other (by simp [List.getLast?_cons, hlast])
    rw [List.cons_append, List.cons_append, nameTags_pair, nameTags_pair, hrest]
    rfl
  | apart first next rest hnext ih =>
    have hrest := ih fun last other hlast => h last other (by rwa [List.getLast?_cons_cons])
    rw [List.cons_append] at hrest
    rw [List.cons_append, List.cons_append, nameTags_cons _ hnext, nameTags_cons _ hnext, hrest,
      List.cons_append]

/-! What is found behind naming -/

section Search

variable {holds : Decl → Prop} {gets : Decl → Typedef → Prop}

/-- A declaration of the list is right in front of a typedef from which it gets what is asked. -/
def GetsAmong (gets : Decl → Typedef → Prop) (decls : List Decl) : Prop :=
  ∃ decl naming, [decl, .typedef naming] <:+: decls ∧ gets decl naming

theorem not_getsAmong_nil : ¬ GetsAmong gets [] := by
  rintro ⟨decl, naming, hpair, _⟩
  cases List.eq_nil_of_infix_nil hpair

theorem getsAmong_cons {decl : Decl} {rest : List Decl} :
    GetsAmong gets (decl :: rest) ↔
      (∃ naming tail, rest = .typedef naming :: tail ∧ gets decl naming) ∨ GetsAmong gets rest := by
  constructor
  · rintro ⟨found, naming, hpair, hgets⟩
    rcases List.infix_cons_iff.mp hpair with hprefix | hrest
    · obtain ⟨rfl, tail, rfl⟩ := List.cons_prefix_cons.mp hprefix
      exact Or.inl ⟨naming, tail, rfl, hgets⟩
    · exact Or.inr ⟨found, naming, hrest, hgets⟩
  · rintro (⟨naming, tail, rfl, hgets⟩ | ⟨found, naming, hpair, hgets⟩)
    · exact ⟨decl, naming, ⟨[], tail, rfl⟩, hgets⟩
    · exact ⟨found, naming, List.infix_cons_iff.mpr (Or.inr hpair), hgets⟩

/-- What no typedef has, and a declaration right in front of a typedef has behind naming if it had
it before or gets it there, is among the named declarations if one had it or gets it. -/
theorem exists_mem_nameTags_iff
    (hpair : ∀ decl naming, holds (namePair decl naming).1 ↔ holds decl ∨ gets decl naming)
    (htypedef : ∀ definition, ¬ holds (.typedef definition)) (decls : List Decl) :
    (∃ decl ∈ nameTags decls, holds decl) ↔
      (∃ decl ∈ decls, holds decl) ∨ GetsAmong gets decls := by
  have hnone (definition naming : Typedef) : ¬ gets (.typedef definition) naming := by
    intro hgets
    have hholds := (hpair (.typedef definition) naming).mpr (Or.inr hgets)
    rw [namePair_typedef] at hholds
    exact htypedef definition hholds
  have hcons (decl : Decl) (rest : List Decl) :
      (∃ found ∈ decl :: rest, holds found) ↔ holds decl ∨ ∃ found ∈ rest, holds found := by
    simp only [List.mem_cons, exists_eq_or_imp]
  induction decls using naming_induction with
  | nil => simp [nameTags, not_getsAmong_nil]
  | single decl => simp [nameTags_singleton, getsAmong_cons, not_getsAmong_nil]
  | pair decl naming rest ih =>
    have hsecond : GetsAmong gets (.typedef naming :: rest) ↔ GetsAmong gets rest := by
      simp [getsAmong_cons, hnone]
    rw [nameTags_pair, getsAmong_cons, hsecond]
    simp only [hcons, hpair, htypedef, ih, false_or]
    simp [or_assoc, or_left_comm]
  | apart decl next rest hnext ih =>
    rw [nameTags_cons rest hnext, getsAmong_cons, hcons, hcons]
    simp only [ih, hnext, List.cons.injEq, or_assoc]
    simp

end Search

/-- A complete record of the name is declared, or one gets the name from the typedef behind it. -/
def IsDefinedAmong (name : String) (decls : List Decl) : Prop :=
  decls.any (defines name) = true ∨
    ∃ decl naming, [decl, .typedef naming] <:+: decls ∧ decl.definesBy naming name = true

theorem any_defines_nameTags {name : String} (decls : List Decl) :
    (nameTags decls).any (defines name) = true ↔ IsDefinedAmong name decls := by
  rw [IsDefinedAmong, List.any_eq_true, List.any_eq_true]
  refine exists_mem_nameTags_iff (fun decl naming => ?_) (fun definition => ?_) decls
  · rw [defines_namePair, Bool.or_eq_true]
  · exact Bool.false_ne_true

end HeaderInterop.Decl
