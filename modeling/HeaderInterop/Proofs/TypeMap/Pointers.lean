import HeaderInterop.Proofs.TypeMap.Levels

/-!
Mapping and pointers. Whether a type has a managed name does not depend on whether it is asked for
by value or behind a pointer, so an array has one exactly when its elements do.
-/

namespace HeaderInterop.TypeMapper

/-- The resolver knows a type by value exactly when it knows a pointer to it. -/
def Resolver.Uniform (resolver : Resolver) : Prop :=
  ∀ first second type, (resolver.map first type).isSome = (resolver.map second type).isSome

variable {mapper : TypeMapper} {below : Resolver}

theorem isSome_primitive? (first second : Bool) (kind : Primitive) :
    (primitive? first kind).isSome = (primitive? second kind).isSome := by
  unfold primitive?
  split
  · rfl
  · simp

theorem isSome_mapAt (h : below.Uniform) (first second : Bool) (type : CType) :
    (mapAt mapper below first type).isSome = (mapAt mapper below second type).isSome := by
  induction type using CType.spineEnd.induct with
  | case1 _ inner ih => simpa only [mapAt] using ih
  | case2 pointee _ => simp only [mapAt, Option.isSome_map]
  | case3 element _ _ => simp only [mapAt]
  | case4 type hqualified hpointer harray =>
    cases type with
    | primitive kind => simpa only [mapAt] using isSome_primitive? first second kind
    | enum | record => simp only [mapAt, Option.isSome_map]
    | typedef name =>
      simp only [mapAt, typedefAt]
      cases mapper.substitute? name with
      | some managed => rfl
      | none =>
        simp only
        split
        · rfl
        · cases mapper.registry.typedef? name with
          | none => rfl
          | some underlying => exact h first second underlying
    | function => rfl
    | qualified qualifier inner => exact absurd rfl (hqualified qualifier inner)
    | pointer pointee => exact absurd rfl (hpointer pointee)
    | array element size => exact absurd rfl (harray element size)

theorem resolver_uniform (mapper : TypeMapper) (n : Nat) : (mapper.resolver n).Uniform := by
  induction n with
  | zero => exact fun _ _ _ => rfl
  | succ n ih => exact fun first second type => isSome_mapAt ih first second type

theorem top_uniform (mapper : TypeMapper) : mapper.top.Uniform :=
  resolver_uniform mapper _

/-- A type has a managed name exactly when what is inside its dimensions has one. -/
theorem isSome_mapAt_dimensions (h : below.Uniform) (first second : Bool) (type : CType) :
    (mapAt mapper below first type).isSome =
      (mapAt mapper below second type.dimensions.2).isSome := by
  induction type using CType.dimensions.induct generalizing first with
  | case1 _ inner ih => simpa only [mapAt, CType.dimensions] using ih first
  | case2 element _ ih => simpa only [mapAt, CType.dimensions] using ih true
  | case3 type hqualified harray =>
    have hdimensions : type.dimensions = ([], type) := by
      cases type <;> first | rfl | exact absurd rfl (hqualified _ _) | exact absurd rfl (harray _ _)
    rw [hdimensions]
    exact isSome_mapAt h first second type

/-- A type without dimensions is mapped like what is inside its qualifiers. -/
theorem mapAt_of_no_dimensions (pointer : Bool) {type : CType} (h : type.dimensions.1 = []) :
    mapAt mapper below pointer type = mapAt mapper below pointer type.dimensions.2 := by
  induction type using CType.dimensions.induct with
  | case1 _ inner ih => simpa only [mapAt, CType.dimensions] using ih h
  | case2 element _ _ => cases h
  | case3 type hqualified harray =>
    cases type <;> first | rfl | exact absurd rfl (hqualified _ _) | exact absurd rfl (harray _ _)

section Acyclic

variable (hacyclic : mapper.registry.Acyclic)
include hacyclic

theorem map_eq_none_iff_dimensions {type : CType} :
    mapper.map type = none ↔ mapper.map type.dimensions.2 = none := by
  have hsome : (mapAt mapper mapper.top false type).isSome =
      (mapAt mapper mapper.top false type.dimensions.2).isSome :=
    isSome_mapAt_dimensions mapper.top_uniform false false type
  rw [mapAt_top hacyclic, mapAt_top hacyclic] at hsome
  rw [← Option.isSome_eq_false_iff.trans Option.isNone_iff_eq_none,
    ← Option.isSome_eq_false_iff.trans Option.isNone_iff_eq_none]
  simp only [map, hsome]

theorem map_of_no_dimensions {type : CType} (h : type.dimensions.1 = []) :
    mapper.map type = mapper.map type.dimensions.2 := by
  have hmap : mapAt mapper mapper.top false type =
      mapAt mapper mapper.top false type.dimensions.2 := mapAt_of_no_dimensions false h
  rwa [mapAt_top hacyclic, mapAt_top hacyclic] at hmap

end Acyclic

end HeaderInterop.TypeMapper
