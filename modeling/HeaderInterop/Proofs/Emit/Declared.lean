import HeaderInterop.Emit.Commands
import HeaderInterop.Proofs.Except
import HeaderInterop.Proofs.Emit.Fields

/-!
Types in emitted declarations. A record is emitted as soon as the types that its fields are declared
with have managed names and its arrays can be indexed, at any depth, and a function as soon as its
types have managed names. Nothing else is looked at, in particular not what else is emitted.
-/

namespace HeaderInterop.Emit

variable {mapper : TypeMapper} {parent : String}

/-- The type that a field is declared with. A record that is defined in it goes by its own name. -/
def declaredType (parent : String) (field : Field) : CType :=
  match field.nested with
  | none => field.type
  | some nested => field.type.retag nested.name (nestedName parent field.name)

/-- The extents and the element type of a declaration of the type, which has no extents if it is no
array. An array without a size is not declared. -/
def placement? (type : CType) : Option (List Nat × CType) :=
  if type.dimensions.1 = [] then some ([], type)
  else (extents? type.dimensions.1).map fun extents => (extents, type.dimensions.2)

/-- One of the fields, or of those of a record that is defined in a declared one, is declared with
these extents and this element type. -/
inductive Declares : String → List Field → List Nat → CType → Prop where
  | field {parent fields field extents type} (hfield : field ∈ fields)
      (hplace : placement? (declaredType parent field) = some (extents, type)) :
      Declares parent fields extents type
  | nested {parent fields field nested extents type} (hfield : field ∈ fields)
      (hplace : (placement? (declaredType parent field)).isSome = true)
      (hnested : field.nested = some nested)
      (h : Declares (nestedName parent field.name) nested.fields extents type) :
      Declares parent fields extents type

/-- The type has a managed name, and an array with these extents can be indexed. -/
def IsDeclarable (mapper : TypeMapper) (extents : List Nat) (type : CType) : Prop :=
  (mapper.map type).isSome = true ∧ extents.prod ≤ maxElements

/-- Everything that the fields are declared with can be declared. -/
def IsLaidOut (mapper : TypeMapper) (parent : String) (fields : List Field) : Prop :=
  ∀ extents type, Declares parent fields extents type → IsDeclarable mapper extents type

theorem isLaidOut_nil : IsLaidOut mapper parent [] := by
  intro extents type hdeclares
  cases hdeclares with
  | field hfield | nested hfield => cases hfield

/-- If the field is declared, this is possible, for a record that is defined in it too. -/
def IsFieldLaidOut (mapper : TypeMapper) (parent : String) (field : Field) : Prop :=
  ∀ extents type, placement? (declaredType parent field) = some (extents, type) →
    IsDeclarable mapper extents type ∧ ∀ nested, field.nested = some nested →
      IsLaidOut mapper (nestedName parent field.name) nested.fields

theorem isLaidOut_cons {field : Field} {rest : List Field} :
    IsLaidOut mapper parent (field :: rest) ↔
      IsFieldLaidOut mapper parent field ∧ IsLaidOut mapper parent rest := by
  constructor
  · intro hall
    refine ⟨fun extents type hplace => ⟨?_, ?_⟩, ?_⟩
    · exact hall extents type (.field (List.mem_cons_self ..) hplace)
    · intro nested hnested inner innerType hdeclares
      have hsome := Option.isSome_iff_exists.mpr ⟨_, hplace⟩
      exact hall inner innerType (.nested (List.mem_cons_self ..) hsome hnested hdeclares)
    · intro extents type hdeclares
      cases hdeclares with
      | field hfield hplace =>
        exact hall extents type (.field (List.mem_cons_of_mem _ hfield) hplace)
      | nested hfield hplace hnested hdeclares =>
        exact hall extents type (.nested (List.mem_cons_of_mem _ hfield) hplace hnested hdeclares)
  · rintro ⟨hfirst, hrest⟩ extents type hdeclares
    cases hdeclares with
    | field hfield hplace =>
      rcases List.mem_cons.mp hfield with rfl | hfield
      · exact (hfirst extents type hplace).1
      · exact hrest extents type (.field hfield hplace)
    | nested hfield hplace hnested hdeclares =>
      rcases List.mem_cons.mp hfield with rfl | hfield
      · obtain ⟨⟨sizes, element⟩, hplace⟩ := Option.isSome_iff_exists.mp hplace
        exact (hfirst sizes element hplace).2 _ hnested extents type hdeclares
      · exact hrest extents type (.nested hfield hplace hnested hdeclares)

theorem isFieldLaidOut_of_none {field : Field}
    (h : placement? (declaredType parent field) = none) : IsFieldLaidOut mapper parent field := by
  intro extents type hplace
  rw [h] at hplace
  cases hplace

theorem isFieldLaidOut_iff {field : Field} {extents : List Nat} {type : CType}
    (h : placement? (declaredType parent field) = some (extents, type)) :
    IsFieldLaidOut mapper parent field ↔
      IsDeclarable mapper extents type ∧ ∀ nested, field.nested = some nested →
        IsLaidOut mapper (nestedName parent field.name) nested.fields := by
  refine ⟨fun hlaid => hlaid extents type h, fun hall others other hplace => ?_⟩
  rw [h] at hplace
  obtain ⟨rfl, rfl⟩ := Prod.mk.inj (Option.some.inj hplace)
  exact hall

/-! Fields -/

theorem fieldCode_of_placement_none {isUnion : Bool} {field : String} {type : CType}
    (h : placement? type = none) : fieldCode mapper isUnion field type = .dropped := by
  unfold placement? at h
  split at h
  · cases h
  · exact fieldCode_dropped (Option.map_eq_none_iff.mp h)

theorem isSome_scalarField {isUnion : Bool} {field : String} {type : CType} :
    (scalarField mapper isUnion field type).isSome = true ↔ IsDeclarable mapper [] type := by
  have hone : [].prod ≤ maxElements := by decide
  rw [scalarField, Option.isSome_map, IsDeclarable, and_iff_left hone]

theorem isSome_arrayField {isUnion : Bool} {field : String} {extents : List Nat}
    {element : CType} (hzero : 0 ∉ extents) :
    (arrayField mapper isUnion field extents element).isSome = true ↔
      IsDeclarable mapper extents element := by
  unfold arrayField IsDeclarable
  rw [elementCount?_eq hzero]
  cases mapper.map element with
  | none => simp
  | some managed =>
    rw [and_iff_right (Option.isSome_some)]
    by_cases hlength : extents.prod ≤ maxElements
    · rw [if_pos hlength]
      exact iff_of_true rfl hlength
    · rw [if_neg hlength]
      exact iff_of_false Bool.false_ne_true hlength

/-- A field that is declared is written if, and only if, this is possible. -/
theorem fieldCode_of_placement {type element : CType} {extents : List Nat}
    (h : placement? type = some (extents, element)) (isUnion : Bool) (field : String) :
    ∃ steps, fieldCode mapper isUnion field type = .ofSteps? steps ∧
      (steps.isSome = true ↔ IsDeclarable mapper extents element) := by
  unfold placement? at h
  split at h
  next hscalar =>
    obtain ⟨rfl, rfl⟩ := Prod.mk.inj (Option.some.inj h)
    exact ⟨_, fieldCode_scalar hscalar, isSome_scalarField⟩
  next harray =>
    obtain ⟨extents, hextents, hplace⟩ := Option.map_eq_some_iff.mp h
    obtain ⟨rfl, rfl⟩ := Prod.mk.inj hplace
    have hzero := (extents?_eq_some.mp hextents).2
    exact ⟨_, fieldCode_array harray hextents, isSome_arrayField hzero⟩

/-! Records and functions -/

mutual

/-- A record is emitted if, and only if, everything in it can be declared. -/
theorem isOk_structSteps (config : Config) (name : String) (record : Record) :
    (structSteps config mapper name record).value.isOk = true ↔
      IsLaidOut mapper name record.fields := by
  match record with
  | ⟨_, kind, _, fields⟩ =>
    rw [structSteps, except_isOk_map]
    exact isOk_fieldSteps config name (kind = .union) fields

theorem isOk_fieldSteps (config : Config) (parent : String) (isUnion : Bool) (fields : List Field) :
    (fieldSteps config mapper parent isUnion fields).value.isOk = true ↔
      IsLaidOut mapper parent fields := by
  match fields with
  | [] => exact iff_of_true rfl isLaidOut_nil
  | ⟨field, type, none⟩ :: rest =>
    have hrest := isOk_fieldSteps config parent isUnion rest
    rw [isLaidOut_cons, fieldSteps, ← hrest]
    cases hplace : placement? type with
    | none =>
      have hfield : IsFieldLaidOut mapper parent ⟨field, type, none⟩ :=
        isFieldLaidOut_of_none hplace
      rw [fieldCode_of_placement_none hplace, and_iff_right hfield]
    | some placement =>
      obtain ⟨steps, hcode, hsteps⟩ := fieldCode_of_placement hplace isUnion field
      have hfield : IsFieldLaidOut mapper parent ⟨field, type, none⟩ ↔ _ :=
        isFieldLaidOut_iff hplace
      rw [hcode, hfield, ← hsteps]
      cases steps <;> simp [FieldCode.ofSteps?]
  | ⟨field, type, some nested⟩ :: rest =>
    have hrest := isOk_fieldSteps config parent isUnion rest
    have hnested := isOk_structSteps config (nestedName parent field) nested
    have htype : declaredType parent ⟨field, type, some nested⟩ =
        type.retag nested.name (nestedName parent field) := rfl
    rw [isLaidOut_cons, fieldSteps, ← hrest, ← htype]
    cases hplace : placement? (declaredType parent ⟨field, type, some nested⟩) with
    | none =>
      have hfield : IsFieldLaidOut mapper parent ⟨field, type, some nested⟩ :=
        isFieldLaidOut_of_none hplace
      rw [fieldCode_of_placement_none hplace, and_iff_right hfield]
    | some placement =>
      obtain ⟨steps, hcode, hsteps⟩ := fieldCode_of_placement hplace isUnion field
      rw [hcode, isFieldLaidOut_iff hplace, ← hsteps]
      cases steps with
      | none => simp [FieldCode.ofSteps?]
      | some steps =>
        cases hinner : (structSteps config mapper (nestedName parent field) nested).value <;>
          simp [FieldCode.ofSteps?, ← hnested, hinner]

end

/-- The types in a function's declaration. -/
def signatureTypes (function : Prototype) : List CType :=
  function.ret :: function.params.map Param.type

/-- A function is emitted if, and only if, its types have managed names. -/
theorem isSome_signature? (function : Prototype) :
    (signature? mapper function).isSome = true ↔
      ∀ type ∈ signatureTypes function, (mapper.map type).isSome = true := by
  have hparams : (paramTypes? mapper function.params).isSome = true ↔
      ∀ type ∈ function.params.map Param.type, (mapper.map type).isSome = true := by
    rw [paramTypes?, isSome_mapM_iff, List.forall_mem_map]
  rw [signatureTypes, List.forall_mem_cons, ← hparams, signature?]
  cases mapper.map function.ret with
  | none => simp
  | some ret => cases paramTypes? mapper function.params <;> simp

end HeaderInterop.Emit
