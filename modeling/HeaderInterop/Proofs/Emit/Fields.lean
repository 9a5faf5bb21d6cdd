import Mathlib.Algebra.BigOperators.Ring.List
import HeaderInterop.Emit.Structs
import HeaderInterop.Proofs.TypeMap.Pointers

/-!
Fields whose type is a typedef. The mapping looks through a typedef that it does not refer to by
name, but the dimensions of a field are those that are written in its type. A typedef may thus be
replaced by what it stands for as long as that has no dimensions, or no managed type.
-/

namespace HeaderInterop

namespace CType

/-- The type with the typedef inside its dimensions replaced by what it stands for. -/
def expand : CType → CType → CType
  | qualified qualifier inner, underlying => qualified qualifier (inner.expand underlying)
  | array element size, underlying => array (element.expand underlying) size
  | typedef _, underlying => underlying
  | type, _ => type

theorem dimensions_expand (underlying : CType) {type : CType} {name : String}
    (h : type.dimensions.2 = .typedef name) :
    (type.expand underlying).dimensions =
      (type.dimensions.1 ++ underlying.dimensions.1, underlying.dimensions.2) := by
  induction type using dimensions.induct with
  | case1 _ inner ih => exact ih h
  | case2 element _ ih => simp [expand, dimensions, ih h]
  | case3 type hqualified harray =>
    cases type with
    | typedef => rfl
    | qualified qualifier inner => exact absurd rfl (hqualified qualifier inner)
    | array element size => exact absurd rfl (harray element size)
    | _ => cases h

end CType

namespace Emit

variable {mapper : TypeMapper} {isUnion : Bool} {field : String}

/-! Extents -/

theorem mapM_id_eq_some {sizes : List (Option Nat)} {extents : List Nat} :
    sizes.mapM id = some extents ↔ sizes = extents.map some := by
  induction sizes generalizing extents with
  | nil => cases extents <;> simp
  | cons size rest ih =>
    rw [List.mapM_cons]
    simp only [Option.bind_eq_bind, Option.bind_eq_some_iff, Option.pure_def, Option.some.injEq, ih]
    cases extents with
    | nil => simp
    | cons extent extents => simp

theorem extents?_eq_some {sizes : List (Option Nat)} {extents : List Nat} :
    extents? sizes = some extents ↔ sizes = extents.map some ∧ 0 ∉ extents := by
  simp [extents?, Option.filter_eq_some_iff, mapM_id_eq_some]

/-- Dimensions have extents when both parts of them have. -/
theorem isSome_extents?_append (sizes others : List (Option Nat)) :
    (extents? (sizes ++ others)).isSome = true ↔
      (extents? sizes).isSome = true ∧ (extents? others).isSome = true := by
  simp only [Option.isSome_iff_exists, extents?_eq_some]
  constructor
  · rintro ⟨extents, hsizes, hzero⟩
    obtain ⟨first, second, rfl, hfirst, hsecond⟩ := List.append_eq_map_iff.mp hsizes
    rw [List.mem_append, not_or] at hzero
    exact ⟨⟨first, hfirst.symm, hzero.1⟩, ⟨second, hsecond.symm, hzero.2⟩⟩
  · rintro ⟨⟨first, rfl, hfirst⟩, ⟨second, rfl, hsecond⟩⟩
    exact ⟨first ++ second, by simp, by simp [hfirst, hsecond]⟩

/-- Counting up goes on as long as a word holds the product, and since no extent is zero the product
does not get smaller again. -/
theorem foldlM_wordProduct? {extents : List Nat} (hzero : 0 ∉ extents) {start : Nat}
    (hstart : start ≤ Text.maxUInt64) :
    extents.foldlM wordProduct? start =
      if start * extents.prod ≤ Text.maxUInt64 then some (start * extents.prod) else none := by
  induction extents generalizing start with
  | nil => simp [hstart]
  | cons extent rest ih =>
    rw [List.mem_cons, not_or] at hzero
    have hpositive : 0 < rest.prod := Nat.pos_of_ne_zero (List.prod_ne_zero hzero.2)
    rw [List.foldlM_cons, List.prod_cons, ← Nat.mul_assoc, wordProduct?]
    by_cases hword : start * extent ≤ Text.maxUInt64
    · rw [if_pos hword]
      exact ih hzero.2 hword
    · have hlarger : start * extent ≤ start * extent * rest.prod :=
        Nat.le_mul_of_pos_right _ hpositive
      rw [if_neg hword, if_neg fun hproduct => hword (hlarger.trans hproduct)]
      rfl

/-- The count is the product of the extents, and is there if an index reaches every element. -/
theorem elementCount?_eq {extents : List Nat} (hzero : 0 ∉ extents) :
    elementCount? extents = if extents.prod ≤ maxElements then some extents.prod else none := by
  have hone : 1 ≤ Text.maxUInt64 := by decide
  have hwords : maxElements ≤ Text.maxUInt64 := by decide
  rw [elementCount?, foldlM_wordProduct? hzero hone, Nat.one_mul]
  by_cases hword : extents.prod ≤ Text.maxUInt64
  · rw [if_pos hword, Option.filter_some]
    simp only [decide_eq_true_eq]
  · rw [if_neg hword, if_neg fun hindex => hword (hindex.trans hwords)]
    rfl

/-! The code of a field -/

/-- What becomes of a field whose declaration is given, if it has one. -/
def FieldCode.ofSteps? : Option (List Code.Step) → FieldCode
  | none => .unmappable
  | some steps => .written steps

theorem fieldCode_scalar {type : CType} (h : type.dimensions.1 = []) :
    fieldCode mapper isUnion field type = .ofSteps? (scalarField mapper isUnion field type) := by
  have hdimensions : type.dimensions = ([], type.dimensions.2) := Prod.ext h rfl
  unfold fieldCode
  rw [hdimensions]
  cases scalarField mapper isUnion field type <;> rfl

theorem fieldCode_dropped {type : CType} (h : extents? type.dimensions.1 = none) :
    fieldCode mapper isUnion field type = .dropped := by
  unfold fieldCode
  split
  next hdimensions =>
    rw [hdimensions] at h
    cases h
  next hdimensions =>
    rw [hdimensions] at h
    rw [h]
    rfl

theorem fieldCode_array {type : CType} {extents : List Nat} (hsome : type.dimensions.1 ≠ [])
    (h : extents? type.dimensions.1 = some extents) :
    fieldCode mapper isUnion field type =
      .ofSteps? (arrayField mapper isUnion field extents type.dimensions.2) := by
  unfold fieldCode
  split
  next hdimensions => exact absurd (congrArg Prod.fst hdimensions) hsome
  next hdimensions =>
    rw [hdimensions] at h ⊢
    rw [h]
    simp only [Option.map_some]
    cases arrayField mapper isUnion field extents _ <;> rfl

/-- The declaration of a field depends on its type through the managed name only. -/
theorem scalarField_congr {type other : CType} (h : mapper.map type = mapper.map other) :
    scalarField mapper isUnion field type = scalarField mapper isUnion field other := by
  unfold scalarField
  rw [h]

theorem arrayField_congr {extents : List Nat} {element other : CType}
    (h : mapper.map element = mapper.map other) :
    arrayField mapper isUnion field extents element =
      arrayField mapper isUnion field extents other := by
  unfold arrayField
  rw [h]

theorem arrayField_of_unmapped {extents : List Nat} {element : CType}
    (h : mapper.map element = none) :
    arrayField mapper isUnion field extents element = none := by
  unfold arrayField
  rw [h]
  rfl

section Acyclic

variable (hacyclic : mapper.registry.Acyclic)
include hacyclic

/-- What becomes of a field depends on the dimensions and on the managed name of the element. -/
theorem fieldCode_congr {type other : CType} (hsizes : type.dimensions.1 = other.dimensions.1)
    (hmap : mapper.map type.dimensions.2 = mapper.map other.dimensions.2) :
    fieldCode mapper isUnion field type = fieldCode mapper isUnion field other := by
  by_cases hscalar : type.dimensions.1 = []
  · have hother : other.dimensions.1 = [] := hsizes ▸ hscalar
    have hsame : mapper.map type = mapper.map other := by
      rw [TypeMapper.map_of_no_dimensions hacyclic hscalar,
        TypeMapper.map_of_no_dimensions hacyclic hother, hmap]
    rw [fieldCode_scalar hscalar, fieldCode_scalar hother, scalarField_congr hsame]
  · have hother : other.dimensions.1 ≠ [] := hsizes ▸ hscalar
    cases hextents : extents? type.dimensions.1 with
    | none => rw [fieldCode_dropped hextents, fieldCode_dropped (hsizes ▸ hextents)]
    | some extents =>
      rw [fieldCode_array hscalar hextents, fieldCode_array hother (hsizes ▸ hextents),
        arrayField_congr hmap]

/-- Without a managed name for its element, a field is dropped or has no declaration. -/
theorem fieldCode_of_unmapped {type : CType} (h : mapper.map type.dimensions.2 = none) :
    fieldCode mapper isUnion field type =
      if (extents? type.dimensions.1).isSome then .unmappable else .dropped := by
  by_cases hscalar : type.dimensions.1 = []
  · have hmap : mapper.map type = none := by
      rw [TypeMapper.map_of_no_dimensions hacyclic hscalar, h]
    rw [fieldCode_scalar hscalar, hscalar]
    simp only [scalarField, hmap]
    rfl
  · cases hextents : extents? type.dimensions.1 with
    | none => exact fieldCode_dropped hextents
    | some extents =>
      rw [fieldCode_array hscalar hextents, arrayField_of_unmapped h]
      rfl

end Acyclic

/-- The type with the typedef replaced is laid out alike: it has no dimensions of its own, or it has
a size but no managed type. -/
def ExpandsAlike (mapper : TypeMapper) (underlying : CType) : Prop :=
  underlying.dimensions.1 = [] ∨
    mapper.map underlying.dimensions.2 = none ∧
      (extents? underlying.dimensions.1).isSome = true

section Alias

variable {name : String} {underlying : CType} (hacyclic : mapper.registry.Acyclic)
  (htypedef : mapper.registry.typedef? name = some underlying)
  (hsubstitute : mapper.substitute? name = none) (hkept : mapper.isKept name = false)
include hacyclic htypedef hsubstitute hkept

theorem map_typedef : mapper.map (.typedef name) = mapper.map underlying :=
  TypeMapper.top_map_typedef hacyclic htypedef hsubstitute hkept false

theorem fieldCode_expand (halike : ExpandsAlike mapper underlying) {type : CType}
    (hend : type.dimensions.2 = .typedef name) :
    fieldCode mapper isUnion field (type.expand underlying) =
      fieldCode mapper isUnion field type := by
  have hmap := map_typedef hacyclic htypedef hsubstitute hkept
  have hdimensions := CType.dimensions_expand underlying hend
  rcases halike with hnone | ⟨hunmapped, hsized⟩
  · rw [hnone, List.append_nil] at hdimensions
    refine fieldCode_congr hacyclic (by rw [hdimensions]) ?_
    rw [hdimensions, hend, hmap, TypeMapper.map_of_no_dimensions hacyclic hnone]
  · have hunderlying := (TypeMapper.map_eq_none_iff_dimensions hacyclic).mpr hunmapped
    have hexpanded : mapper.map (type.expand underlying).dimensions.2 = none := by
      rw [hdimensions, hunmapped]
    rw [fieldCode_of_unmapped hacyclic hexpanded,
      fieldCode_of_unmapped hacyclic (by rw [hend, hmap, hunderlying]), hdimensions]
    have hextents := isSome_extents?_append type.dimensions.1 underlying.dimensions.1
    simp only [hextents, hsized, and_true]

end Alias

end Emit

end HeaderInterop
