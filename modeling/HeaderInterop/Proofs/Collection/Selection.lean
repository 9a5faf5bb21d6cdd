import HeaderInterop.Proofs.Collection
import Mathlib.Data.List.Basic

/-!
What is selected from the headers, told without the lists that are being filled. Each macro and each
declaration stands for at most a few entries; the entries of all of them, in order, are what a list
is chosen from, and of those it holds the first of each name.
-/

namespace HeaderInterop

namespace Collection

variable {settings : CollectSettings}

/-! Macros -/

/-- A macro with a value that neither guards a header nor is excluded, in any case of its letters. -/
def IsConstant (settings : CollectSettings) (m : Macro) : Prop :=
  m.functionLike = false ∧ m.value ≠ "" ∧
    (∀ suffix ∈ settings.guardSuffixes,
      ¬ Text.lowerAscii suffix.toList <:+ Text.lowerAscii m.name.toList) ∧
    ∀ excluded ∈ settings.excludedMacros,
      Text.lowerAscii excluded.toList ≠ Text.lowerAscii m.name.toList

instance (m : Macro) : Decidable (IsConstant settings m) :=
  inferInstanceAs (Decidable (_ ∧ _ ∧ _ ∧ _))

theorem macroReason?_isNone_iff {m : Macro} :
    (macroReason? settings m).isNone = true ↔ IsConstant settings m := by
  have hguards :
      (settings.guardSuffixes.any fun suffix =>
          Text.endsWith (Text.lowerAscii suffix.toList) (Text.lowerAscii m.name.toList)) = false ↔
        ∀ suffix ∈ settings.guardSuffixes,
          ¬ Text.lowerAscii suffix.toList <:+ Text.lowerAscii m.name.toList := by
    simp [Text.endsWith]
  have hexcluded :
      (settings.excludedMacros.any fun excluded =>
          Text.lowerAscii excluded.toList = Text.lowerAscii m.name.toList) = false ↔
        ∀ excluded ∈ settings.excludedMacros,
          Text.lowerAscii excluded.toList ≠ Text.lowerAscii m.name.toList := by
    simp
  rw [IsConstant, ← hguards, ← hexcluded]
  simp only [macroReason?]
  split
  next hfunction => simp [hfunction]
  next hfunction =>
    rw [Bool.not_eq_true] at hfunction
    split
    next hvalue => simp [hvalue]
    next hvalue =>
      split
      next hguard =>
        rw [hguard]
        simp
      next hguard =>
        rw [Bool.not_eq_true] at hguard
        rw [hfunction, hguard]
        split
        next hlisted =>
          rw [hlisted]
          simp
        next hlisted =>
          rw [Bool.not_eq_true] at hlisted
          rw [hlisted]
          simp [hvalue]

def macroOffer? (settings : CollectSettings) (m : Macro) : Option (String × Macro) :=
  if IsConstant settings m then some (m.name, m) else none

/-! Declarations -/

/-- The constants that the members of an unnamed enum stand for. -/
def memberOffers : Decl → List (String × Macro)
  | .enum definition =>
    if definition.name = none then
      definition.constants.map fun constant =>
        (constant.name, .ofText constant.name (enumLiteral constant.value).toList)
    else []
  | _ => []

def enumOffer? : Decl → Option (String × Enumeration)
  | .enum definition => definition.name.map fun name => (name, definition)
  | _ => none

/-- A record that is neither a class, nor the target of a handle, nor written by hand. -/
def IsBindable (settings : CollectSettings) (name : String) (record : Record) : Prop :=
  record.kind ≠ .classLike ∧ ¬ settings.opaqueSuffix.toList <:+ name.toList ∧
    name ∉ settings.handwrittenStructs

instance (name : String) (record : Record) : Decidable (IsBindable settings name record) :=
  inferInstanceAs (Decidable (_ ∧ _ ∧ _))

theorem recordRole_of_isBindable {name : String} {record : Record}
    (h : IsBindable settings name record) :
    recordRole settings name record =
      if record.complete = false then .declared
      else if record.fields.isEmpty then .skipped "zero size" else .struct := by
  obtain ⟨hkind, hsuffix, hwritten⟩ := h
  have hends : Text.endsWith settings.opaqueSuffix.toList name.toList = false := by
    rw [Text.endsWith, Bool.eq_false_iff, Ne, List.isSuffixOf_iff_suffix]
    exact hsuffix
  rw [recordRole, if_neg hkind, hends]
  cases hcomplete : record.complete <;> simp [hwritten, Record.isZeroSized, hcomplete]

theorem exists_recordRole_of_not_isBindable {name : String} {record : Record}
    (h : ¬ IsBindable settings name record) :
    ∃ reason, recordRole settings name record = .skipped reason := by
  unfold recordRole
  split
  next => exact ⟨_, rfl⟩
  next hkind =>
    split
    next => exact ⟨_, rfl⟩
    next hends =>
      split
      next => exact ⟨_, rfl⟩
      next hwritten =>
        refine absurd ⟨hkind, ?_, ?_⟩ h
        · simpa [Text.endsWith] using hends
        · simpa using hwritten

/-- A complete record with fields. -/
def structOffer? (settings : CollectSettings) : Decl → Option (String × Record)
  | .record definition => definition.name.bind fun name =>
    if IsBindable settings name definition ∧ definition.complete = true ∧
        definition.fields.isEmpty = false then
      some (name, definition)
    else none
  | _ => none

/-- A forward declaration of a record that no header defines, or a typedef of a pointer to one. -/
def handleOffer? (settings : CollectSettings) (registry : Registry) :
    Decl → Option (String × HandleKind)
  | .record definition => definition.name.bind fun name =>
    if IsBindable settings name definition ∧ definition.complete = false ∧
        registry.isOpaque name = true then
      some (name, .opaqueRecord)
    else none
  | .typedef definition =>
    if registry.isPointerHandle definition.name = true then some (definition.name, .pointer)
    else none
  | _ => none

/-- A function of fixed arity that is called across the boundary. -/
def IsCallable (settings : CollectSettings) (function : Prototype) : Prop :=
  function.isStatic = false ∧ function.isInline = false ∧ function.variadic = false ∧
    function.name ∉ settings.excludedFunctions

instance (function : Prototype) : Decidable (IsCallable settings function) :=
  inferInstanceAs (Decidable (_ ∧ _ ∧ _ ∧ _))

theorem functionReason?_isNone_iff {function : Prototype} :
    (functionReason? settings function).isNone = true ↔ IsCallable settings function := by
  rw [functionReason?, IsCallable]
  cases function.isStatic <;> cases function.isInline <;> cases function.variadic <;> simp

def functionOffer? (settings : CollectSettings) : Decl → Option (String × Prototype)
  | .function function =>
    if IsCallable settings function then some (function.name, function) else none
  | _ => none

/-! What the macros and declarations offer -/

theorem macroOffers_eq (m : Macro) :
    macroOffers settings m = { constants := (macroOffer? settings m).toList } := by
  rw [macroOffers, macroOffer?]
  by_cases h : IsConstant settings m
  · rw [if_pos h, if_pos (macroReason?_isNone_iff.mpr h)]
    rfl
  · rw [if_neg h, if_neg (mt macroReason?_isNone_iff.mp h)]
    rfl

theorem declOffers_eq (registry : Registry) (decl : Decl) :
    declOffers settings registry decl =
      { constants := memberOffers decl
        enums := (enumOffer? decl).toList
        records := (structOffer? settings decl).toList
        handles := (handleOffer? settings registry decl).toList
        functions := (functionOffer? settings decl).toList } := by
  cases decl with
  | enum definition =>
    obtain ⟨name, underlying, constants⟩ := definition
    cases name <;> rfl
  | typedef definition =>
    simp only [declOffers, handleOffer?]
    split <;> rfl
  | function function =>
    simp only [declOffers, functionOffer?, functionReason?_isNone_iff]
    split <;> rfl
  | record definition =>
    simp only [declOffers, structOffer?, handleOffer?]
    cases hname : definition.name with
    | none => rfl
    | some name =>
      simp only [Option.bind_some]
      by_cases hbindable : IsBindable settings name definition
      · simp only [recordRole_of_isBindable hbindable, hbindable, true_and]
        cases hcomplete : definition.complete with
        | false => cases registry.isOpaque name <;> rfl
        | true => cases hfields : definition.fields.isEmpty <;> rfl
      · obtain ⟨reason, hrole⟩ := exists_recordRole_of_not_isBindable hbindable
        simp only [hrole, hbindable, false_and, if_false]
        rfl

/-! The lists -/

/-- The declarations of the headers themselves. -/
def ownDecls (headers : List Header) : List Decl :=
  headers.flatMap Header.decls

/-- The entries of the headers for each list, in order. The constants of a header are its macros and
then the members of its unnamed enums. -/
def offersOf (settings : CollectSettings) (registry : Registry) (headers : List Header) : Offers where
  constants := headers.flatMap fun header =>
    header.macros.filterMap (macroOffer? settings) ++ header.decls.flatMap memberOffers
  enums := (ownDecls headers).filterMap enumOffer?
  records := (ownDecls headers).filterMap (structOffer? settings)
  handles := (ownDecls headers).filterMap (handleOffer? settings registry)
  functions := (ownDecls headers).filterMap (functionOffer? settings)

/-- Entries that macros have no part in are those of the declarations. -/
theorem flatMap_decls_eq {α : Type} {ofMacro : Macro → List α} {ofDecl : Decl → List α}
    {offer? : Decl → Option α} (hempty : ∀ m, ofMacro m = [])
    (hdecl : ∀ decl, ofDecl decl = (offer? decl).toList) (headers : List Header) :
    (headers.flatMap fun header => header.macros.flatMap ofMacro ++ header.decls.flatMap ofDecl) =
      (ownDecls headers).filterMap offer? := by
  rw [ownDecls, List.filterMap_flatMap]
  apply List.flatMap_congr
  intro header _
  have hmacros : header.macros.flatMap ofMacro = [] :=
    List.flatMap_eq_nil_iff.mpr fun m _ => hempty m
  rw [hmacros, List.nil_append, List.filterMap_eq_flatMap_toList]
  exact List.flatMap_congr fun decl _ => hdecl decl

theorem flatMap_headerOffers (registry : Registry) (headers : List Header) :
    Offers.flatMap (headerOffers settings registry) headers =
      offersOf settings registry headers := by
  simp only [Offers.flatMap, headerOffers, Offers.append, macroOffers_eq, declOffers_eq, offersOf,
    Offers.mk.injEq]
  refine ⟨?_, flatMap_decls_eq (fun _ => rfl) (fun _ => rfl) headers,
    flatMap_decls_eq (fun _ => rfl) (fun _ => rfl) headers,
    flatMap_decls_eq (fun _ => rfl) (fun _ => rfl) headers,
    flatMap_decls_eq (fun _ => rfl) (fun _ => rfl) headers⟩
  simp only [List.filterMap_eq_flatMap_toList]

theorem ofHeaders_eq_accept (settings : CollectSettings) (headers : List Header) :
    (ofHeaders settings headers).value =
      accept { registry := .registerAll headers }
        (offersOf settings (.registerAll headers) headers) := by
  rw [ofHeaders_value, flatMap_headerOffers]

/-- Each list of a collection holds the first of each name among the entries that the headers have
for it: the macros and the members of unnamed enums, the named enums, the records with fields, the
handles of both kinds, and the functions. -/
theorem ofHeaders_holdsFirst (settings : CollectSettings) (headers : List Header) :
    let collection := (ofHeaders settings headers).value
    let offers := offersOf settings (.registerAll headers) headers
    collection.constants.HoldsFirst offers.constants ∧
      collection.enums.HoldsFirst offers.enums ∧
      collection.records.HoldsFirst offers.records ∧
      collection.handles.HoldsFirst offers.handles ∧
      collection.functions.HoldsFirst offers.functions := by
  intro collection offers
  have hcollection : collection = accept { registry := .registerAll headers } offers :=
    ofHeaders_eq_accept settings headers
  rw [hcollection]
  exact ⟨Worklist.holdsFirst_addAll _, Worklist.holdsFirst_addAll _, Worklist.holdsFirst_addAll _,
    Worklist.holdsFirst_addAll _, Worklist.holdsFirst_addAll _⟩

end Collection

end HeaderInterop
