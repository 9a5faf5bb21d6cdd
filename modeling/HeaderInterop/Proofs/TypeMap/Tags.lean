import HeaderInterop.Emit.Structs

/-!
Types that end in a name. Inside arrays, pointers and qualifiers stands a base; if that is mapped by
a name, the managed type is the name with a star for each pointer and for each array that decays. A
record goes by its tag.
-/

namespace HeaderInterop

namespace CType

/-- The type is the base inside qualifiers, pointers and arrays. -/
inductive BuiltFrom (base : CType) : CType → Prop where
  | base : BuiltFrom base base
  | qualified {qualifier inner} (h : BuiltFrom base inner) :
      BuiltFrom base (.qualified qualifier inner)
  | pointer {pointee} (h : BuiltFrom base pointee) : BuiltFrom base (.pointer pointee)
  | array {element size} (h : BuiltFrom base element) : BuiltFrom base (.array element size)

/-- The name of a typedef, or the tag of a record or an enum. -/
def name? : CType → Option String
  | typedef name => some name
  | enum name | record _ name => name
  | _ => none

/-- The record with the tag is at the end of the arrays, pointers and qualifiers. -/
inductive EndsInRecord (tag : String) : CType → Prop where
  | record {kind} : EndsInRecord tag (.record kind (some tag))
  | qualified {qualifier inner} (h : EndsInRecord tag inner) :
      EndsInRecord tag (.qualified qualifier inner)
  | pointer {pointee} (h : EndsInRecord tag pointee) : EndsInRecord tag (.pointer pointee)
  | array {element size} (h : EndsInRecord tag element) : EndsInRecord tag (.array element size)

/-- The managed type with the name at the end of the arrays, pointers and qualifiers; the flag asks
for that of a pointer to the type. -/
def spelled (name : String) (isPointee : Bool) : CType → String
  | qualified _ inner => inner.spelled name isPointee
  | pointer pointee => TypeMapper.starred isPointee (pointee.spelled name true)
  | array element _ => element.spelled name true
  | _ => TypeMapper.starred isPointee name

theorem EndsInRecord.builtFrom {tag : String} {type : CType} (h : type.EndsInRecord tag) :
    ∃ kind, BuiltFrom (.record kind (some tag)) type := by
  induction h with
  | @record kind => exact ⟨kind, .base⟩
  | qualified _ ih =>
    obtain ⟨kind, hinner⟩ := ih
    exact ⟨kind, hinner.qualified⟩
  | pointer _ ih =>
    obtain ⟨kind, hpointee⟩ := ih
    exact ⟨kind, hpointee.pointer⟩
  | array _ ih =>
    obtain ⟨kind, helement⟩ := ih
    exact ⟨kind, helement.array⟩

theorem EndsInRecord.dimensions {tag : String} {type : CType} (h : type.EndsInRecord tag) :
    type.dimensions.2.EndsInRecord tag := by
  induction h with
  | record => exact .record
  | qualified _ ih => exact ih
  | pointer h => exact h.pointer
  | array _ ih => exact ih

/-- A record with another tag is not replaced. -/
theorem EndsInRecord.retag_of_ne {tag : String} {type : CType} (h : type.EndsInRecord tag)
    {old : Option String} (hold : old ≠ some tag) (new : String) : type.retag old new = type := by
  induction h with
  | record => rw [retag, if_neg hold.symm]
  | qualified _ ih | pointer _ ih | array _ ih => rw [retag, ih]

theorem EndsInRecord.retag {tag : String} {type : CType} (h : type.EndsInRecord tag)
    (new : String) : (type.retag (some tag) new).EndsInRecord new := by
  induction h with
  | record =>
    rw [CType.retag, if_pos rfl]
    exact .record
  | qualified _ ih => exact ih.qualified
  | pointer _ ih => exact ih.pointer
  | array _ ih => exact ih.array

theorem spelled_retag (old : Option String) (new name : String) (isPointee : Bool) (type : CType) :
    (type.retag old new).spelled name isPointee = type.spelled name isPointee := by
  induction type using spineEnd.induct generalizing isPointee with
  | case1 _ inner ih => exact ih isPointee
  | case2 pointee ih => rw [retag, spelled, spelled, ih]
  | case3 element _ ih => exact ih true
  | case4 type hqualified hpointer harray =>
    cases type with
    | record kind tag =>
      rw [retag]
      split <;> rfl
    | qualified qualifier inner => exact absurd rfl (hqualified qualifier inner)
    | pointer pointee => exact absurd rfl (hpointer pointee)
    | array element size => exact absurd rfl (harray element size)
    | _ => rfl

/-- Types with different names are different. -/
theorem spelled_inj {type : CType} {isPointee : Bool} {first second : String} :
    type.spelled first isPointee = type.spelled second isPointee ↔ first = second := by
  have hstarred (pointer : Bool) (left right : String) :
      TypeMapper.starred pointer left = TypeMapper.starred pointer right ↔ left = right := by
    cases pointer with
    | false => rfl
    | true => exact String.append_left_inj "*"
  induction type using spineEnd.induct generalizing isPointee with
  | case1 _ inner ih => exact ih
  | case2 pointee ih => exact (hstarred isPointee _ _).trans ih
  | case3 element _ ih => exact ih
  | case4 type hqualified hpointer harray =>
    cases type with
    | qualified qualifier inner => exact absurd rfl (hqualified qualifier inner)
    | pointer pointee => exact absurd rfl (hpointer pointee)
    | array element size => exact absurd rfl (harray element size)
    | _ => exact hstarred isPointee first second

end CType

namespace TypeMapper

variable {mapper : TypeMapper} {below : Resolver} {tag name managed : String} {base type : CType}

theorem spelled_of_name? (hname : base.name? = some name) (pointer : Bool) :
    base.spelled managed pointer = starred pointer managed := by
  cases base with
  | typedef | enum | record => rfl
  | _ => cases hname

theorem delegateAt_of_builtFrom (hbase : delegateAt mapper below base = none)
    (h : base.BuiltFrom type) : delegateAt mapper below type = none := by
  induction h with
  | base => exact hbase
  | qualified _ ih =>
    rw [delegateAt]
    exact ih
  | pointer | array => rfl

theorem isConstVoid_of_builtFrom (hname : base.name? = some name) (h : base.BuiltFrom type) :
    isConstVoid type = false := by
  have hqualified (qualifier : Qualifier) : isConstVoid (.qualified qualifier base) = false := by
    cases base with
    | typedef | enum | record => rfl
    | _ => cases hname
  cases h with
  | base =>
    cases base with
    | typedef | enum | record => rfl
    | _ => cases hname
  | qualified hinner =>
    cases hinner with
    | base => exact hqualified _
    | qualified | pointer | array => rfl
  | pointer | array => rfl

/-- A base that is mapped by a name, and is not a function type, is spelled with the name. -/
theorem mapAt_of_builtFrom (hname : base.name? = some name)
    (hmap : ∀ pointer, mapAt mapper below pointer base = some (starred pointer managed))
    (hdelegate : delegateAt mapper below base = none) (h : base.BuiltFrom type) (pointer : Bool) :
    mapAt mapper below pointer type = some (type.spelled managed pointer) := by
  induction h generalizing pointer with
  | base => rw [hmap, spelled_of_name? hname]
  | qualified _ ih =>
    rw [mapAt]
    exact ih pointer
  | pointer hpointee ih =>
    -- The pointee is neither a function type nor a constant nothing, so the pointer is a plain one.
    rw [mapAt, delegateAt_of_builtFrom hdelegate hpointee, isConstVoid_of_builtFrom hname hpointee,
      ih true]
    rfl
  | array _ ih =>
    rw [mapAt]
    exact ih true

/-- A record goes by its tag, behind whatever arrays, pointers and qualifiers. -/
theorem map_of_endsInRecord (h : type.EndsInRecord tag) :
    mapper.map type = some (type.spelled (mapper.cleanName tag) false) := by
  obtain ⟨kind, hbuilt⟩ := h.builtFrom
  exact mapAt_of_builtFrom rfl (fun _ => rfl) rfl hbuilt false

end TypeMapper

end HeaderInterop
