import HeaderInterop.Proofs.Emit.Declared

/-!
The members of a struct. A field is dropped if a dimension of its type is missing or zero. Each of
the others has one declaration, with the struct of the record that is defined in it right behind,
and these stand in the order of the fields. The struct is given up if one of them cannot be written.
-/

namespace HeaderInterop

namespace CType

theorem dimensions_retag (old : Option String) (new : String) (type : CType) :
    (type.retag old new).dimensions = (type.dimensions.1, type.dimensions.2.retag old new) := by
  induction type using dimensions.induct with
  | case1 _ inner ih => exact ih
  | case2 element size ih => simp only [retag, dimensions, ih]
  | case3 type hqualified harray =>
    cases type with
    | qualified qualifier inner => exact absurd rfl (hqualified qualifier inner)
    | array element size => exact absurd rfl (harray element size)
    | record kind name =>
      have hrecord (tag : Option String) :
          (record kind tag).dimensions = ([], record kind tag) := rfl
      by_cases hname : name = old <;> simp [retag, hrecord, hname]
    | _ => rfl

end CType

namespace Emit

open Code (Step)

variable {config : Config} {mapper : TypeMapper} {parent : String} {isUnion : Bool}

/-! Fields -/

/-- One of the leading dimensions of the field's type is missing or zero. -/
def isDropped (field : Field) : Bool :=
  field.type.dimensions.1.any fun size => size = none || size = some 0

/-- The dimensions of a field that is not dropped, outermost first; a scalar has none. -/
def extents (field : Field) : List Nat :=
  field.type.dimensions.1.filterMap id

/-- The type of a field, or of its elements if it is an array. A record that is defined in the field
goes by the name of its struct. -/
def elementType (parent : String) (field : Field) : CType :=
  if field.type.dimensions.1 = [] then declaredType parent field
  else (declaredType parent field).dimensions.2

/-- The line that declares a field with elements of the managed type. -/
def declarationLine (field : String) (extents : List Nat) (managed : String) : String :=
  if extents = [] then
    "public " ++ (if hasPointer managed then "unsafe " else "") ++ managed ++ " " ++
      identifier field ++ ";"
  else if isFixedBufferType managed then
    "public unsafe fixed " ++ managed ++ " " ++ identifier field ++ "[" ++
      " * ".intercalate (extents.map toString) ++ "];"
  else "public " ++ (field ++ "__FixedBuffer") ++ " " ++ identifier field ++ ";"

/-- The declaration of a field: its line, behind the offset in a union, and the struct of the
elements if it is an array and no fixed buffer. -/
def declaration (isUnion : Bool) (field : String) (extents : List Nat) (managed : String) :
    List Step :=
  offsetLine isUnion ++ .line (declarationLine field extents managed) ::
    if extents = [] ∨ isFixedBufferType managed = true then []
    else (elementWrapper field managed extents.prod).tail

/-- The declaration of a field that is not dropped, if its type is mapped and an index reaches every
element. -/
def declaration? (mapper : TypeMapper) (parent : String) (isUnion : Bool) (field : Field) :
    Option (List Step) :=
  if (extents field).prod ≤ maxElements then
    (mapper.map (elementType parent field)).map (declaration isUnion field.name (extents field))
  else none

theorem dimensions_declaredType (parent : String) (field : Field) :
    (declaredType parent field).dimensions.1 = field.type.dimensions.1 := by
  unfold declaredType
  split
  · rfl
  · rw [CType.dimensions_retag]

theorem extents?_dimensions (field : Field) :
    extents? field.type.dimensions.1 = if isDropped field then none else some (extents field) := by
  unfold isDropped extents
  generalize field.type.dimensions.1 = sizes
  by_cases hdropped : sizes.any (fun size => size = none || size = some 0) = true
  · rw [if_pos hdropped, Option.eq_none_iff_forall_ne_some]
    intro all hall
    obtain ⟨rfl, hzero⟩ := extents?_eq_some.mp hall
    rw [List.any_eq_true] at hdropped
    obtain ⟨size, hsize, hbad⟩ := hdropped
    obtain ⟨extent, hextent, rfl⟩ := List.mem_map.mp hsize
    have hpositive : extent ≠ 0 := fun h => hzero (h ▸ hextent)
    simp [hpositive] at hbad
  · rw [if_neg hdropped, extents?_eq_some]
    simp only [List.any_eq_true, Bool.or_eq_true, decide_eq_true_eq, not_exists, not_and, not_or]
      at hdropped
    constructor
    · induction sizes with
      | nil => rfl
      | cons size rest ih =>
        have hrest := ih fun other hother => hdropped other (List.mem_cons_of_mem _ hother)
        obtain ⟨extent, rfl⟩ :=
          Option.ne_none_iff_exists'.mp (hdropped size (List.mem_cons_self ..)).1
        exact congrArg (some extent :: ·) hrest
    · intro hzero
      obtain ⟨size, hsize, hsizeZero⟩ := List.mem_filterMap.mp hzero
      exact (hdropped size hsize).2 hsizeZero

theorem scalarField_eq (field : String) (type : CType) :
    scalarField mapper isUnion field type =
      (mapper.map type).map (declaration isUnion field []) :=
  rfl

theorem arrayField_eq (field : String) {extents : List Nat} (hextents : extents ≠ [])
    (hzero : 0 ∉ extents) (element : CType) :
    arrayField mapper isUnion field extents element =
      if extents.prod ≤ maxElements then
        (mapper.map element).map (declaration isUnion field extents)
      else none := by
  unfold arrayField
  rw [elementCount?_eq hzero]
  cases mapper.map element with
  | none => simp
  | some managed =>
    by_cases hlength : extents.prod ≤ maxElements
    · rw [if_pos hlength, if_pos hlength, Option.map_some, declaration, declarationLine,
        if_neg hextents]
      cases hbuffer : isFixedBufferType managed <;> simp [hextents, hbuffer, elementWrapper]
    · rw [if_neg hlength, if_neg hlength]
      rfl

/-- What becomes of a field, with the record that is defined in it by the name of its struct. -/
theorem fieldCode_declaredType (parent : String) (isUnion : Bool) (field : Field) :
    fieldCode mapper isUnion field.name (declaredType parent field) =
      if isDropped field then .dropped
      else .ofSteps? (declaration? mapper parent isUnion field) := by
  have hdimensions := dimensions_declaredType parent field
  have hextents := extents?_dimensions field
  rw [← hdimensions] at hextents
  by_cases hscalar : field.type.dimensions.1 = []
  · have hkept : isDropped field = false := by simp [isDropped, hscalar]
    have hnone : extents field = [] := by simp [extents, hscalar]
    have hone : [].prod ≤ maxElements := by decide
    rw [fieldCode_scalar (hdimensions.trans hscalar), scalarField_eq, hkept, declaration?, hnone,
      elementType, if_pos hscalar, if_pos hone]
    rfl
  · cases hdropped : isDropped field with
    | true =>
      rw [hdropped] at hextents
      rw [fieldCode_dropped hextents, if_pos rfl]
    | false =>
      rw [hdropped] at hextents
      have hsome : extents field ≠ [] := by
        intro hnone
        rw [hnone] at hextents
        exact hscalar (hdimensions.symm.trans (extents?_eq_some.mp hextents).1)
      have hzero := (extents?_eq_some.mp hextents).2
      rw [fieldCode_array (hdimensions ▸ hscalar) hextents, arrayField_eq field.name hsome hzero,
        declaration?, elementType, if_neg hscalar]
      rfl

theorem fieldCode_eq_dropped_iff (field : Field) :
    fieldCode mapper isUnion field.name (declaredType parent field) = .dropped ↔
      isDropped field = true := by
  rw [fieldCode_declaredType]
  cases isDropped field with
  | true => exact iff_of_true rfl rfl
  | false =>
    cases declaration? mapper parent isUnion field <;>
      exact iff_of_false FieldCode.noConfusion Bool.false_ne_true

/-! Structs -/

/-- The struct of the record that is defined in a field, with a blank line in front. -/
def nestedSteps (config : Config) (mapper : TypeMapper) (parent : String) (field : Field) :
    Except Unmappable (List Step) :=
  match field.nested with
  | none => .ok []
  | some nested =>
    (structSteps config mapper (nestedName parent field.name) nested).value.map (.blank :: ·)

/-- The fields that take a place in the struct. -/
def keptFields (fields : List Field) : List Field :=
  fields.filter fun field => !isDropped field

/-- A field can be written: its type, or that of its elements, is mapped, an index reaches every
element, and the record that is defined in it can be written too. -/
structure IsWritable (config : Config) (mapper : TypeMapper) (parent : String) (field : Field) :
    Prop where
  element : (mapper.map (elementType parent field)).isSome = true
  length : (extents field).prod ≤ maxElements
  nested (nested : Record) (h : field.nested = some nested) :
    (structSteps config mapper (nestedName parent field.name) nested).value.isOk = true

/-- The code of a field: its declaration, and the struct of the record that is defined in it. -/
def IsMember (config : Config) (mapper : TypeMapper) (parent : String) (isUnion : Bool)
    (field : Field) (member : List Step) : Prop :=
  ∃ managed inner, mapper.map (elementType parent field) = some managed ∧
    (extents field).prod ≤ maxElements ∧ nestedSteps config mapper parent field = .ok inner ∧
    member = declaration isUnion field.name (extents field) managed ++ inner

theorem structSteps_value (config : Config) (mapper : TypeMapper) (name : String)
    (record : Record) :
    (structSteps config mapper name record).value =
      (fieldSteps config mapper name (record.kind = .union) record.fields).value.map
        (structBlock config name record.kind) := by
  obtain ⟨tag, kind, complete, fields⟩ := record
  rw [structSteps]

theorem fieldSteps_cons (field : Field) (rest : List Field) :
    (fieldSteps config mapper parent isUnion (field :: rest)).value =
      match fieldCode mapper isUnion field.name (declaredType parent field) with
      | .unmappable => .error ⟨qualifiedField parent field.name⟩
      | .dropped => (fieldSteps config mapper parent isUnion rest).value
      | .written steps => do
        let inner ← nestedSteps config mapper parent field
        let others ← (fieldSteps config mapper parent isUnion rest).value
        return steps ++ inner ++ others := by
  obtain ⟨field, type, nested⟩ := field
  cases nested with
  | none =>
    have htype : declaredType parent ⟨field, type, none⟩ = type := rfl
    rw [fieldSteps, htype, nestedSteps]
    cases fieldCode mapper isUnion field type with
    | unmappable | dropped => rfl
    | written steps =>
      cases hrest : (fieldSteps config mapper parent isUnion rest).value <;>
        simp [hrest, Except.map, bind, Except.bind, pure, Except.pure]
  | some nested =>
    have htype : declaredType parent ⟨field, type, some nested⟩ =
        type.retag nested.name (nestedName parent field) := rfl
    rw [fieldSteps, htype, nestedSteps]
    cases fieldCode mapper isUnion field (type.retag nested.name (nestedName parent field)) with
    | unmappable | dropped => rfl
    | written steps =>
      cases hinner : (structSteps config mapper (nestedName parent field) nested).value <;>
        cases hrest : (fieldSteps config mapper parent isUnion rest).value <;>
        simp [hinner, hrest, Except.map, bind, Except.bind, pure, Except.pure]

theorem isMember_iff {field : Field} {member : List Step} :
    IsMember config mapper parent isUnion field member ↔
      ∃ own inner, declaration? mapper parent isUnion field = some own ∧
        nestedSteps config mapper parent field = .ok inner ∧ member = own ++ inner := by
  constructor
  · rintro ⟨managed, inner, hmap, hlength, hinner, rfl⟩
    exact ⟨_, inner, by rw [declaration?, if_pos hlength, hmap, Option.map_some], hinner, rfl⟩
  · rintro ⟨own, inner, hown, hinner, rfl⟩
    rw [declaration?] at hown
    split at hown
    next hlength =>
      obtain ⟨managed, hmap, rfl⟩ := Option.map_eq_some_iff.mp hown
      exact ⟨managed, inner, hmap, hlength, hinner, rfl⟩
    next => cases hown

theorem exists_isMember_iff (isUnion : Bool) {field : Field} :
    (∃ member, IsMember config mapper parent isUnion field member) ↔
      IsWritable config mapper parent field := by
  constructor
  · rintro ⟨member, managed, inner, hmap, hlength, hinner, _⟩
    refine ⟨Option.isSome_iff_exists.mpr ⟨managed, hmap⟩, hlength, fun nested hnested => ?_⟩
    rw [nestedSteps, hnested] at hinner
    obtain ⟨steps, hsteps, _⟩ := except_map_eq_ok.mp hinner
    exact except_isOk_iff.mpr ⟨steps, hsteps⟩
  · intro hwritable
    obtain ⟨managed, hmap⟩ := Option.isSome_iff_exists.mp hwritable.element
    have hnested : ∃ inner, nestedSteps config mapper parent field = .ok inner := by
      rw [nestedSteps]
      cases hrecord : field.nested with
      | none => exact ⟨[], rfl⟩
      | some nested =>
        obtain ⟨steps, hsteps⟩ := except_isOk_iff.mp (hwritable.nested nested hrecord)
        exact ⟨.blank :: steps, except_map_eq_ok.mpr ⟨steps, hsteps, rfl⟩⟩
    obtain ⟨inner, hinner⟩ := hnested
    exact ⟨_, managed, inner, hmap, hwritable.length, hinner, rfl⟩

theorem keptFields_cons_of_dropped {field : Field} (h : isDropped field = true)
    (rest : List Field) : keptFields (field :: rest) = keptFields rest :=
  List.filter_cons_of_neg (by simp [h])

theorem keptFields_cons_of_kept {field : Field} (h : isDropped field = false)
    (rest : List Field) : keptFields (field :: rest) = field :: keptFields rest :=
  List.filter_cons_of_pos (by simp [h])

/-- A body is the members of the fields that are not dropped, in order. -/
theorem fieldSteps_eq_ok {fields : List Field} {body : List Step} :
    (fieldSteps config mapper parent isUnion fields).value = .ok body ↔
      ∃ members, List.Forall₂ (IsMember config mapper parent isUnion) (keptFields fields) members ∧
        body = members.flatten := by
  induction fields generalizing body with
  | nil =>
    have hnil : keptFields [] = [] := rfl
    simp [fieldSteps, hnil, eq_comm]
  | cons field rest ih =>
    rw [fieldSteps_cons, fieldCode_declaredType]
    cases hdropped : isDropped field with
    | true =>
      rw [if_pos rfl, keptFields_cons_of_dropped hdropped]
      exact ih
    | false =>
      rw [if_neg Bool.false_ne_true, keptFields_cons_of_kept hdropped]
      simp only [List.forall₂_cons_left_iff, isMember_iff]
      cases hown : declaration? mapper parent isUnion field with
      | none => simp [FieldCode.ofSteps?]
      | some own =>
        simp only [FieldCode.ofSteps?, except_bind_eq_ok, except_pure_eq_ok, ih]
        constructor
        · rintro ⟨inner, hinner, _, ⟨members, hmembers, rfl⟩, rfl⟩
          exact ⟨_, ⟨_, members, ⟨own, inner, rfl, hinner, rfl⟩, hmembers, rfl⟩, rfl⟩
        · rintro ⟨_, ⟨_, members, ⟨same, inner, hsame, hinner, rfl⟩, hmembers, rfl⟩, rfl⟩
          obtain rfl := Option.some.inj hsame
          exact ⟨inner, hinner, _, ⟨members, hmembers, rfl⟩, rfl⟩

theorem exists_forall₂_iff {α β : Type} {R : α → β → Prop} {items : List α} :
    (∃ results, List.Forall₂ R items results) ↔ ∀ item ∈ items, ∃ result, R item result := by
  induction items with
  | nil => simp
  | cons item rest ih =>
    rw [List.forall_mem_cons, ← ih]
    simp only [List.forall₂_cons_left_iff]
    constructor
    · rintro ⟨_, result, results, hfirst, hrest, rfl⟩
      exact ⟨⟨result, hfirst⟩, results, hrest⟩
    · rintro ⟨⟨result, hfirst⟩, results, hrest⟩
      exact ⟨_, result, results, hfirst, hrest, rfl⟩

/-- The struct of a record is its last step, a block with the name at the end of its header. -/
theorem getLast?_structBlock (config : Config) (name : String) (kind : RecordKind)
    (body : List Step) :
    ∃ header, (structBlock config name kind body).getLast? = some (.block header body) ∧
      ("partial struct " ++ name).toList <:+ header.toList := by
  refine ⟨_, List.getLast?_concat, config.visibility.toList ++ [' '], ?_⟩
  simp

/-- A field is dropped exactly when one of its dimensions is missing or zero. A struct is written
exactly when every other field can be, and it then consists of the members of these fields, each of
them once and in order. The managed types are answers of the mapping, so this says something only
where mapping the type of each field comes to an end, as it does without cycles of typedefs. -/
theorem structSteps_members (config : Config) (mapper : TypeMapper) (name : String)
    (record : Record) :
    (∀ field isUnion, fieldCode mapper isUnion field.name (declaredType name field) = .dropped ↔
        isDropped field = true) ∧
      ((structSteps config mapper name record).value.isOk = true ↔
        ∀ field ∈ record.fields, isDropped field = false → IsWritable config mapper name field) ∧
      ∀ steps, (structSteps config mapper name record).value = .ok steps ↔
        ∃ members, List.Forall₂ (IsMember config mapper name (record.kind = .union))
            (keptFields record.fields) members ∧
          steps = structBlock config name record.kind members.flatten := by
  rw [structSteps_value]
  refine ⟨fun field isUnion => fieldCode_eq_dropped_iff field, ?_, ?_⟩
  · have hkept : (∀ field ∈ record.fields, isDropped field = false →
        IsWritable config mapper name field) ↔
        ∀ field ∈ keptFields record.fields, IsWritable config mapper name field := by
      simp [keptFields]
    rw [hkept, except_isOk_map, except_isOk_iff]
    simp only [fieldSteps_eq_ok, ← exists_isMember_iff (decide (record.kind = .union)),
      ← exists_forall₂_iff]
    exact ⟨fun ⟨_, members, hmembers, _⟩ => ⟨members, hmembers⟩,
      fun ⟨members, hmembers⟩ => ⟨_, members, hmembers, rfl⟩⟩
  · intro steps
    rw [except_map_eq_ok]
    constructor
    · rintro ⟨body, hbody, rfl⟩
      obtain ⟨members, hmembers, rfl⟩ := fieldSteps_eq_ok.mp hbody
      exact ⟨members, hmembers, rfl⟩
    · rintro ⟨members, hmembers, rfl⟩
      exact ⟨_, fieldSteps_eq_ok.mpr ⟨members, hmembers, rfl⟩, rfl⟩

end Emit

end HeaderInterop
