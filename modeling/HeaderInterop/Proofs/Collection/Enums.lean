import HeaderInterop.Config.Default
import HeaderInterop.Proofs.Collection.Selection

/-!
Enums of a collection. An enum without constants is a forward declaration, and it takes the place of
its name like a definition does. So what the enum is bound to hangs on which of the two comes first,
unlike for records, where only a complete one is a struct.
-/

namespace HeaderInterop

/-- A declaration of the enum that has constants. -/
def Enumeration.Defines (definition : Enumeration) (name : String) : Prop :=
  definition.name = some name ∧ definition.constants ≠ []

/-- A declaration of the enum without any constant. -/
def Enumeration.IsForward (definition : Enumeration) (name : String) : Prop :=
  definition.name = some name ∧ definition.constants = []

/-- The declaration, if it is of an enum with that name. -/
def Decl.enumAs? (name : String) : Decl → Option Enumeration
  | .enum definition => if definition.name = some name then some definition else none
  | _ => none

theorem Decl.enumAs?_eq_some {name : String} {decl : Decl} {definition : Enumeration} :
    decl.enumAs? name = some definition ↔
      decl = .enum definition ∧ definition.name = some name := by
  cases decl with
  | enum other =>
    simp only [Decl.enumAs?, Option.ite_none_right_eq_some, Option.some.injEq, Decl.enum.injEq]
    constructor
    · rintro ⟨hname, rfl⟩
      exact ⟨rfl, hname⟩
    · rintro ⟨rfl, hname⟩
      exact ⟨hname, rfl⟩
  | typedef | record | function => simp [Decl.enumAs?]

namespace Collection

variable {settings : CollectSettings} {headers : List Header} {name : String}

theorem lookup_enumOffers (decls : List Decl) (name : String) :
    (decls.filterMap enumOffer?).lookup name = decls.findSome? (Decl.enumAs? name) := by
  induction decls with
  | nil => rfl
  | cons decl rest ih =>
    rw [List.findSome?_cons]
    cases decl with
    | enum definition =>
      simp only [List.filterMap_cons, enumOffer?, Decl.enumAs?]
      cases hname : definition.name with
      | none => simpa using ih
      | some other =>
        by_cases hother : name = other
        · simp [hother]
        · simpa [List.lookup_cons, beq_eq_false_iff_ne.mpr hother, Ne.symm hother] using ih
    | typedef | record | function => exact ih

/-- The list holds, for a name, the declaration of the enum that no other one stands in front of. -/
theorem mem_enums_iff {definition : Enumeration} :
    (name, definition) ∈ (ofHeaders settings headers).value.enums.entries ↔
      ∃ before after, ownDecls headers = before ++ .enum definition :: after ∧
        definition.name = some name ∧ ∀ other, .enum other ∈ before → other.name ≠ some name := by
  rw [ofHeaders_eq_accept]
  change (name, definition) ∈
    (Worklist.addAll {} ((ownDecls headers).filterMap enumOffer?)).entries ↔ _
  rw [(Worklist.holdsFirst_addAll _).mem_iff, lookup_enumOffers, List.findSome?_eq_some_iff]
  constructor
  · rintro ⟨before, decl, after, hdecls, hdecl, hbefore⟩
    obtain ⟨rfl, hname⟩ := Decl.enumAs?_eq_some.mp hdecl
    refine ⟨before, after, hdecls, hname, fun other hother hsame => ?_⟩
    have hnone := hbefore _ hother
    rw [Decl.enumAs?_eq_some.mpr ⟨rfl, hsame⟩] at hnone
    cases hnone
  · rintro ⟨before, after, hdecls, hname, hbefore⟩
    refine ⟨before, _, after, hdecls, Decl.enumAs?_eq_some.mpr ⟨rfl, hname⟩, fun decl hdecl => ?_⟩
    rw [Option.eq_none_iff_forall_ne_some]
    intro other hother
    obtain ⟨rfl, hsame⟩ := Decl.enumAs?_eq_some.mp hother
    exact hbefore other hdecl hsame

/-- Every enum that is declared is in the list. -/
theorem exists_mem_enums (settings : CollectSettings) {definition : Enumeration}
    (hdecl : .enum definition ∈ ownDecls headers) (hname : definition.name = some name) :
    ∃ kept, (name, kept) ∈ (ofHeaders settings headers).value.enums.entries := by
  have hnames : name ∈ (ofHeaders settings headers).value.enums.names := by
    rw [ofHeaders_eq_accept]
    refine Worklist.mem_names_addAll.mpr (List.mem_map.mpr ⟨(name, definition), ?_, rfl⟩)
    exact List.mem_filterMap.mpr ⟨_, hdecl, by rw [enumOffer?, hname, Option.map_some]⟩
  obtain ⟨⟨_, kept⟩, hkept, rfl⟩ := List.mem_map.mp hnames
  exact ⟨kept, hkept⟩

/-- Of two different elements of a list, one stands in front of the other. -/
theorem mem_or_mem_of_append_cons_eq {α : Type} {before after front back : List α}
    {first second : α}
    (h : before ++ first :: after = front ++ second :: back) (hne : first ≠ second) :
    second ∈ before ∨ first ∈ front := by
  rcases List.append_eq_append_iff.mp h with ⟨between, rfl, hrest⟩ | ⟨between, rfl, hrest⟩
  · rcases List.cons_eq_append_iff.mp hrest with ⟨_, hsecond⟩ | ⟨_, rfl, _⟩
    · rw [List.cons.injEq] at hsecond
      exact absurd hsecond.1.symm hne
    · exact Or.inr (by simp)
  · rcases List.cons_eq_append_iff.mp hrest with ⟨_, hfirst⟩ | ⟨_, rfl, _⟩
    · rw [List.cons.injEq] at hfirst
      exact absurd hfirst.1 hne
    · exact Or.inl (by simp)

/-- An enum that some header defines is bound to a definition if, and only if, each forward
declaration of it has a definition in front. -/
theorem enums_defined_iff (settings : CollectSettings) (headers : List Header) (name : String)
    (hdefined : ∃ header ∈ headers, ∃ definition : Enumeration,
      .enum definition ∈ header.decls ∧ definition.Defines name) :
    (∃ definition, (name, definition) ∈ (ofHeaders settings headers).value.enums.entries ∧
        definition.Defines name) ↔
      ∀ before forward after, ownDecls headers = before ++ .enum forward :: after →
        forward.IsForward name →
          ∃ definition, .enum definition ∈ before ∧ definition.Defines name := by
  constructor
  · rintro ⟨definition, hkept, hdefines⟩ before forward after hdecls hforward
    obtain ⟨front, back, hfront, _, hfirst⟩ := mem_enums_iff.mp hkept
    have hne : Decl.enum forward ≠ .enum definition := by
      rintro ⟨⟩
      exact hdefines.2 hforward.2
    rcases mem_or_mem_of_append_cons_eq (hdecls.symm.trans hfront) hne with hbefore | hahead
    · exact ⟨definition, hbefore, hdefines⟩
    · exact absurd hforward.1 (hfirst forward hahead)
  · intro hbehind
    obtain ⟨header, hheader, definition, hdecl, hdefines⟩ := hdefined
    have hown : .enum definition ∈ ownDecls headers :=
      List.mem_flatMap.mpr ⟨header, hheader, hdecl⟩
    obtain ⟨kept, hkept⟩ := exists_mem_enums settings hown hdefines.1
    obtain ⟨before, after, hdecls, hname, hfirst⟩ := mem_enums_iff.mp hkept
    refine ⟨kept, hkept, hname, fun hempty => ?_⟩
    obtain ⟨other, hother, hsame, _⟩ := hbehind before kept after hdecls ⟨hname, hempty⟩
    exact hfirst other hother hsame

/-- `enum E;` and `enum E { A };`. -/
def forwardEnum : Enumeration := ⟨some "E", none, []⟩

def definedEnum : Enumeration := ⟨some "E", none, [⟨"A", 0⟩]⟩

def enumHeader (decls : List Enumeration) : Header :=
  { path := "/include/e.h", macros := [], decls := decls.map .enum, included := [] }

theorem enums_defined_iff_enumHeader :
    ∃ definition, ("E", definition) ∈ (ofHeaders Config.standard.collect
        [enumHeader [definedEnum], enumHeader [forwardEnum]]).value.enums.entries ∧
      definition.Defines "E" := by
  refine (enums_defined_iff Config.standard.collect
    [enumHeader [definedEnum], enumHeader [forwardEnum]] "E"
    ⟨_, List.mem_cons_self .., definedEnum, by simp [enumHeader], rfl, by simp [definedEnum]⟩).mpr ?_
  intro before forward after hdecls hforward
  refine ⟨definedEnum, ?_, rfl, by simp [definedEnum]⟩
  cases before with
  | nil =>
    obtain rfl : definedEnum = forward := Decl.enum.inj (List.cons.inj hdecls).1
    cases hforward.2
  | cons decl before =>
    obtain rfl : .enum definedEnum = decl := (List.cons.inj hdecls).1
    exact List.mem_cons_self ..

/-- A forward declaration in front of the definition takes its place, and the constants are lost. -/
theorem enums_forward_first :
    (∃ header ∈ [enumHeader [forwardEnum, definedEnum]], ∃ definition : Enumeration,
        .enum definition ∈ header.decls ∧ definition.Defines "E") ∧
      ¬ ∃ definition, ("E", definition) ∈ (ofHeaders Config.standard.collect
          [enumHeader [forwardEnum, definedEnum]]).value.enums.entries ∧
        definition.Defines "E" := by
  refine ⟨⟨_, List.mem_singleton_self _, definedEnum, by simp [enumHeader], rfl,
    by simp [definedEnum]⟩, ?_⟩
  rintro ⟨definition, hkept, _, hconstants⟩
  obtain rfl : definition = forwardEnum := by
    obtain ⟨_, rfl⟩ := Prod.mk.inj (List.mem_singleton.mp hkept)
    rfl
  exact hconstants rfl

end Collection

end HeaderInterop
