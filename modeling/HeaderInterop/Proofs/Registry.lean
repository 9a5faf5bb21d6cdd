import HeaderInterop.Registry
import HeaderInterop.Proofs.Decl.Naming

/-!
What the registry knows, told from the stream of registered declarations. Each declaration adds to
what was known before it, so a look-up after a run of declarations is settled by the declarations of
that name alone: the first typedef, the first complete record, the first forward declaration.
-/

namespace HeaderInterop

namespace Decl

/-- The type that the declaration defines the name as. -/
def typedefAs? (name : String) : Decl → Option CType
  | .typedef definition => if definition.name = name then some definition.underlying else none
  | _ => none

/-- The record that the declaration declares under the name. -/
def recordAs? (name : String) : Decl → Option Record
  | .record definition => if definition.name = some name then some definition else none
  | _ => none

theorem typedefAs?_eq_some {name : String} {decl : Decl} {underlying : CType} :
    decl.typedefAs? name = some underlying ↔ decl = .typedef { name, underlying } := by
  cases decl with
  | typedef definition =>
    obtain ⟨other, type⟩ := definition
    by_cases h : other = name <;> simp [typedefAs?, h]
  | record | enum | function => simp [typedefAs?]

end Decl

namespace Registry

/-- The declarations of the headers in the order in which they are registered. -/
def stream (headers : List Header) : List Decl :=
  headers.flatMap fun header => header.included ++ header.decls

theorem registerAll_eq_foldl (headers : List Header) :
    registerAll headers = (stream headers).foldl addDecl {} := by
  rw [stream, List.foldl_flatMap]
  rfl

@[simp] theorem typedef?_addRecord (registry : Registry) (name key : String) (new : Record) :
    (registry.addRecord name new).typedef? key = registry.typedef? key := by
  unfold addRecord
  split <;> rfl

@[simp] theorem record?_addTypedef (registry : Registry) (name key : String) (underlying : CType) :
    (registry.addTypedef name underlying).record? key = registry.record? key := by
  unfold addTypedef
  split <;> rfl

theorem record?_addRecord (registry : Registry) (name key : String) (new : Record) :
    (registry.addRecord name new).record? key =
      if key = name ∧ supersedes new (registry.record? name) = true then some new
      else registry.record? key := by
  unfold addRecord
  by_cases h : supersedes new (registry.record? name) = true
  · rw [if_pos h]
    simp only [h, and_true]
    exact lookup_setEntry name key new registry.records
  · rw [if_neg h, if_neg (fun hk => h hk.2)]

/-- A name is no longer opaque once a record of the name is complete. -/
theorem isOpaque_addRecord (registry : Registry) (name key : String) (new : Record) :
    (registry.addRecord name new).isOpaque key =
      (registry.isOpaque key && !(decide (name = key) && new.complete)) := by
  by_cases hkey : key = name
  · subst hkey
    rw [isOpaque, isOpaque, record?_addRecord]
    cases hknown : registry.record? key with
    | none => simp [supersedes]
    | some known => cases hold : known.complete <;> cases hnew : new.complete <;>
        simp [supersedes, hold, hnew]
  · have hname : ¬ name = key := fun h => hkey h.symm
    rw [isOpaque, isOpaque, record?_addRecord, if_neg fun h => hkey h.1]
    simp [hname]

theorem isOpaque_addDecl (registry : Registry) (decl : Decl) (key : String) :
    (registry.addDecl decl).isOpaque key = (registry.isOpaque key && !decl.defines key) := by
  cases decl with
  | typedef definition => simp [addDecl, isOpaque, Decl.defines]
  | record definition =>
    cases hname : definition.name with
    | none => simp [addDecl, Decl.defines, hname]
    | some name =>
      rw [addDecl, hname]
      simp only [isOpaque_addRecord, Decl.defines, hname, Option.some.injEq]
  | enum | function => simp [addDecl, Decl.defines]

theorem isOpaque_foldl_addDecl (registry : Registry) (decls : List Decl) (key : String) :
    (decls.foldl addDecl registry).isOpaque key =
      (registry.isOpaque key && !decls.any (Decl.defines key)) := by
  induction decls generalizing registry with
  | nil => simp
  | cons decl rest ih =>
    rw [List.foldl_cons, ih, isOpaque_addDecl, List.any_cons, Bool.not_or, Bool.and_assoc]

/-- A name is opaque exactly when no registered declaration is a complete record of the name. -/
theorem isOpaque_registerAll (headers : List Header) (key : String) :
    (registerAll headers).isOpaque key = !(stream headers).any (Decl.defines key) := by
  rw [registerAll_eq_foldl, isOpaque_foldl_addDecl]
  rfl

theorem stream_perm {headers permuted : List Header} (h : permuted.Perm headers) :
    (stream permuted).Perm (stream headers) :=
  h.flatMap_right _

theorem isOpaque_registerAll_of_perm {headers permuted : List Header} (h : permuted.Perm headers)
    (key : String) : (registerAll permuted).isOpaque key = (registerAll headers).isOpaque key := by
  rw [isOpaque_registerAll, isOpaque_registerAll, (stream_perm h).any_eq]

/-! Typedefs -/

theorem typedef?_addTypedef (registry : Registry) (name key : String) (underlying : CType) :
    (registry.addTypedef name underlying).typedef? key =
      (registry.typedef? key).or (if name = key then some underlying else none) := by
  unfold addTypedef
  cases hknown : registry.typedef? name with
  | some known =>
    by_cases hkey : name = key
    · subst hkey
      simp [hknown]
    · simp [hkey]
  | none =>
    have hlast : List.lookup key [(name, underlying)] =
        if name = key then some underlying else none := by
      by_cases hkey : name = key
      · subst hkey
        simp
      · have hne : (key == name) = false := beq_eq_false_iff_ne.mpr fun h => hkey h.symm
        simp [List.lookup_cons, hne, hkey]
    simp only [typedef?]
    rw [List.lookup_append, hlast]

/-- The first typedef of a name stays. -/
theorem typedef?_addDecl (registry : Registry) (decl : Decl) (key : String) :
    (registry.addDecl decl).typedef? key =
      (registry.typedef? key).or (decl.typedefAs? key) := by
  cases decl with
  | typedef definition => exact typedef?_addTypedef ..
  | record definition =>
    simp only [addDecl]
    split <;> simp [Decl.typedefAs?]
  | enum | function => simp [addDecl, Decl.typedefAs?]

theorem typedef?_foldl_addDecl (registry : Registry) (decls : List Decl) (key : String) :
    (decls.foldl addDecl registry).typedef? key =
      (registry.typedef? key).or (decls.findSome? (Decl.typedefAs? key)) := by
  induction decls generalizing registry with
  | nil => simp
  | cons decl rest ih =>
    rw [List.foldl_cons, ih, typedef?_addDecl, Option.or_assoc, List.findSome?_cons]
    congr 1
    cases decl.typedefAs? key <;> rfl

theorem typedef?_registerAll (headers : List Header) (key : String) :
    (registerAll headers).typedef? key = (stream headers).findSome? (Decl.typedefAs? key) := by
  rw [registerAll_eq_foldl, typedef?_foldl_addDecl]
  rfl

/-! Records -/

/-- The first complete one of the records, or else the first forward declaration. -/
def preferred (records : List Record) : Option Record :=
  (records.find? Record.complete).or (records.find? fun record => !record.complete)

/-- What was preferred stands for all that it was chosen from. -/
theorem preferred_append (records more : List Record) :
    preferred ((preferred records).toList ++ more) = preferred (records ++ more) := by
  unfold preferred
  simp only [List.find?_append]
  cases hcomplete : records.find? Record.complete with
  | some found => simp [List.find?_some hcomplete]
  | none =>
    cases hforward : records.find? fun record => !record.complete with
    | some found =>
      have hincomplete := List.find?_some hforward
      simp_all
    | none => simp

theorem preferred_toList (known : Option Record) : preferred known.toList = known := by
  cases known with
  | none => rfl
  | some record => cases h : record.complete <;> simp [preferred, h]

/-- A record takes the place of the known one exactly when it is preferred to it. -/
theorem preferred_concat (known : Option Record) (new : Record) :
    preferred (known.toList ++ [new]) = if supersedes new known then some new else known := by
  cases known with
  | none => exact preferred_toList (some new)
  | some record =>
    cases hold : record.complete <;> cases hnew : new.complete <;>
      simp [preferred, supersedes, hold, hnew]

theorem record?_addDecl (registry : Registry) (decl : Decl) (key : String) :
    (registry.addDecl decl).record? key =
      preferred ((registry.record? key).toList ++ (decl.recordAs? key).toList) := by
  cases decl with
  | record definition =>
    cases hname : definition.name with
    | none => simp [addDecl, Decl.recordAs?, hname, preferred_toList]
    | some name =>
      simp only [addDecl, hname, record?_addRecord, Decl.recordAs?, Option.some.injEq]
      by_cases hkey : name = key
      · subst hkey
        simp only [if_true, Option.toList_some, preferred_concat, true_and]
      · have hne : ¬ key = name := fun h => hkey h.symm
        simp [hkey, hne, preferred_toList]
  | typedef definition => simp [addDecl, Decl.recordAs?, preferred_toList]
  | enum | function => simp [addDecl, Decl.recordAs?, preferred_toList]

theorem record?_foldl_addDecl (registry : Registry) (decls : List Decl) (key : String) :
    (decls.foldl addDecl registry).record? key =
      preferred ((registry.record? key).toList ++ decls.filterMap (Decl.recordAs? key)) := by
  induction decls generalizing registry with
  | nil => simp [preferred_toList]
  | cons decl rest ih =>
    rw [List.foldl_cons, ih, record?_addDecl, preferred_append, List.append_assoc,
      List.filterMap_cons]
    cases decl.recordAs? key <;> rfl

theorem record?_registerAll (headers : List Header) (key : String) :
    (registerAll headers).record? key =
      preferred ((stream headers).filterMap (Decl.recordAs? key)) := by
  rw [registerAll_eq_foldl, record?_foldl_addDecl]
  rfl

theorem isOpaque_registerAll_iff {headers : List Header} {key : String} :
    (registerAll headers).isOpaque key = true ↔
      ∀ definition, .record definition ∈ stream headers → definition.name = some key →
        definition.complete = false := by
  rw [isOpaque_registerAll, Bool.not_eq_true', List.any_eq_false]
  constructor
  · intro h definition hmem hname
    have hdefines := h _ hmem
    simpa [Decl.defines, hname] using hdefines
  · intro h decl hmem
    cases decl with
    | record definition =>
      by_cases hname : definition.name = some key
      · simp [Decl.defines, h definition hmem hname]
      · simp [Decl.defines, hname]
    | typedef | enum | function => simp [Decl.defines]

/-- The look-ups of a registry, told from the declarations registered in it. The first typedef of a
name counts, and the first complete record or else the first forward declaration; a name is opaque
when no record of the name is complete, in whatever order the headers come. -/
theorem registerAll_lookups (headers : List Header) (name : String) :
    (registerAll headers).typedef? name =
        (stream headers).findSome? (Decl.typedefAs? name) ∧
      (registerAll headers).record? name =
        preferred ((stream headers).filterMap (Decl.recordAs? name)) ∧
      ((registerAll headers).isOpaque name = true ↔
        ∀ definition, .record definition ∈ stream headers → definition.name = some name →
          definition.complete = false) ∧
      ∀ permuted : List Header, permuted.Perm headers →
        (registerAll permuted).isOpaque name = (registerAll headers).isOpaque name := by
  refine ⟨typedef?_registerAll headers name, record?_registerAll headers name,
    isOpaque_registerAll_iff, ?_⟩
  intro permuted hperm
  exact isOpaque_registerAll_of_perm hperm name

/-- Declares a record and a pointer to it. -/
def forwardHeader : Header where
  path := "/include/a.h"
  macros := []
  decls :=
    [.record ⟨some "Shape", .struct, false, []⟩,
      .typedef { name := "ShapeRef", underlying := .pointer (.record .struct (some "Shape")) }]
  included := []

/-- Defines the record. -/
def definingHeader : Header where
  path := "/include/b.h"
  macros := []
  decls := [.record ⟨some "Shape", .struct, true, [⟨"x", .primitive .int, none⟩]⟩]
  included := []

theorem registerAll_lookups_swapped :
    [definingHeader, forwardHeader].Perm [forwardHeader, definingHeader] ∧
      (registerAll [forwardHeader]).isOpaque "Shape" = true ∧
      (registerAll [forwardHeader, definingHeader]).isOpaque "Shape" = false ∧
      (registerAll [definingHeader, forwardHeader]).isOpaque "Shape" = false := by
  have hperm : [definingHeader, forwardHeader].Perm [forwardHeader, definingHeader] :=
    List.Perm.swap ..
  have hopaque : (registerAll [forwardHeader, definingHeader]).isOpaque "Shape" = false := by
    decide
  refine ⟨hperm, by decide, hopaque, ?_⟩
  obtain ⟨_, _, _, hsame⟩ := registerAll_lookups [forwardHeader, definingHeader] "Shape"
  rw [hsame _ hperm, hopaque]

end Registry

end HeaderInterop
