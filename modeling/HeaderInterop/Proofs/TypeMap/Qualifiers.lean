import HeaderInterop.TypeMap

/-!
Mapping and qualifiers. Qualifiers have no counterpart in a managed type, wherever they stand. There
is one exception: a pointer to a constant nothing is told from an address.
-/

namespace HeaderInterop

namespace CType

mutual

/-- The type without its qualifiers, at any depth. A constant nothing right behind a pointer stays
constant. -/
def bare : CType → CType
  | .qualified _ inner => inner.bare
  | .pointer pointee =>
    if TypeMapper.isConstVoid pointee then .pointer (.qualified .constant (.primitive .void))
    else .pointer pointee.bare
  | .array element size => .array element.bare size
  | .function ret params variadic => .function ret.bare (allBare params) variadic
  | .primitive kind => .primitive kind
  | .enum name => .enum name
  | .typedef name => .typedef name
  | .record kind name => .record kind name

def allBare : List CType → List CType
  | [] => []
  | type :: rest => type.bare :: allBare rest

end

mutual

/-- No qualifier stands in the type, unless it makes the nothing behind a pointer constant. -/
def isBare : CType → Bool
  | .qualified .. => false
  | .pointer (.qualified .constant (.primitive .void)) => true
  | .pointer pointee => pointee.isBare
  | .array element _ => element.isBare
  | .function ret params _ => ret.isBare && allAreBare params
  | .primitive _ | .enum _ | .typedef _ | .record .. => true

def allAreBare : List CType → Bool
  | [] => true
  | type :: rest => type.isBare && allAreBare rest

end

theorem bare_ne_qualified (type : CType) (qualifier : Qualifier) (inner : CType) :
    type.bare ≠ .qualified qualifier inner := by
  induction type using unqualified.induct with
  | case1 _ _ ih => exact ih
  | case2 type h =>
    cases type with
    | qualified qualifier inner => exact absurd rfl (h qualifier inner)
    | pointer pointee =>
      rw [bare]
      split <;> simp
    | _ => simp [bare]

theorem isConstVoid_bare (type : CType) : TypeMapper.isConstVoid type.bare = false := by
  unfold TypeMapper.isConstVoid
  split
  next h => exact absurd h (bare_ne_qualified type _ _)
  next => rfl

theorem isBare_pointer_bare {pointee : CType} (h : pointee.bare.isBare = true) :
    (CType.pointer pointee.bare).isBare = true := by
  unfold isBare
  split <;> first | rfl | simp_all

mutual

theorem isBare_bare (type : CType) : type.bare.isBare = true := by
  match type with
  | .primitive _ | .enum _ | .typedef _ | .record .. => rfl
  | .qualified _ inner => exact isBare_bare inner
  | .pointer pointee =>
    rw [bare]
    split
    · rfl
    · exact isBare_pointer_bare (isBare_bare pointee)
  | .array element _ => exact isBare_bare element
  | .function ret params _ =>
    exact Bool.and_eq_true_iff.mpr ⟨isBare_bare ret, allAreBare_allBare params⟩

theorem allAreBare_allBare (types : List CType) : allAreBare (allBare types) = true := by
  match types with
  | [] => rfl
  | type :: rest =>
    exact Bool.and_eq_true_iff.mpr ⟨isBare_bare type, allAreBare_allBare rest⟩

end

end CType

namespace TypeMapper

variable {mapper : TypeMapper} {below : Resolver}

theorem boolLikePart?_bare (type : CType) :
    mapper.boolLikePart? type.bare = mapper.boolLikePart? type := by
  induction type using CType.unqualified.induct with
  | case1 _ inner ih => exact ih
  | case2 type h =>
    cases type with
    | qualified qualifier inner => exact absurd rfl (h qualifier inner)
    | pointer pointee =>
      rw [CType.bare]
      split <;> rfl
    | _ => rfl

theorem mapAt_pointer_of_isConstVoid {pointee : CType} (h : isConstVoid pointee = true)
    (pointer : Bool) :
    mapAt mapper below pointer (.pointer pointee) = some (starred pointer "void*") := by
  have hdelegate : delegateAt mapper below pointee = none := by
    unfold isConstVoid at h
    split at h
    · rfl
    · cases h
  rw [mapAt, hdelegate, h]
  rfl

mutual

theorem mapAt_bare (type : CType) (pointer : Bool) :
    mapAt mapper below pointer type.bare = mapAt mapper below pointer type := by
  match type with
  | .primitive _ | .enum _ | .typedef _ | .record .. | .function .. => rfl
  | .qualified _ inner =>
    rw [CType.bare, mapAt]
    exact mapAt_bare inner pointer
  | .array element _ =>
    rw [CType.bare, mapAt, mapAt]
    exact mapAt_bare element true
  | .pointer pointee =>
    rw [CType.bare]
    split
    next hvoid =>
      rw [mapAt_pointer_of_isConstVoid hvoid, mapAt_pointer_of_isConstVoid rfl]
    next hplain =>
      -- A bare pointee is no constant nothing, so the test for one fails on both sides.
      rw [mapAt, mapAt, delegateAt_bare pointee, CType.isConstVoid_bare, mapAt_bare pointee true,
        Bool.eq_false_iff.mpr hplain]

theorem delegateAt_bare (type : CType) :
    delegateAt mapper below type.bare = delegateAt mapper below type := by
  match type with
  | .primitive _ | .enum _ | .typedef _ | .record .. | .array .. => rfl
  | .qualified _ inner =>
    rw [CType.bare, delegateAt]
    exact delegateAt_bare inner
  | .pointer pointee =>
    rw [CType.bare]
    split <;> rfl
  | .function ret params variadic =>
    rw [CType.bare, delegateAt, delegateAt, partsAt_bare params, mapAt_bare ret false, part?, part?,
      boolLikePart?_bare]

theorem partsAt_bare (types : List CType) :
    partsAt mapper below (CType.allBare types) = partsAt mapper below types := by
  match types with
  | [] => rfl
  | type :: rest =>
    rw [CType.allBare, partsAt, partsAt, mapAt_bare type false, partsAt_bare rest, part?, part?,
      boolLikePart?_bare]

end

/-- Leaving out every qualifier of a type, at any depth, does not change its managed name, nor that
of a pointer to it if it is a function type, nor whether it has one. -/
theorem map_bare (mapper : TypeMapper) :
    (∀ type : CType, type.bare.isBare = true ∧ mapper.map type.bare = mapper.map type) ∧
      ∀ ret params variadic,
        mapper.functionPointer (CType.function ret params variadic).bare =
          mapper.functionPointer (.function ret params variadic) := by
  refine ⟨fun type => ⟨CType.isBare_bare type, mapAt_bare type false⟩, ?_⟩
  intro ret params variadic
  exact congrArg (·.getD "nint") (delegateAt_bare (.function ret params variadic))

end TypeMapper

end HeaderInterop
