import HeaderInterop.Proofs.TypeMap.Stars
import HeaderInterop.Proofs.TypeMap.Tags

/-!
Names that are substituted. Whatever the headers declare under a name that the settings substitute,
a type built from the name is the substituted name with its stars: one for each pointer and array,
but for those right outside another array, which decay together with it.
-/

namespace HeaderInterop

namespace CType

def isArray : CType → Bool
  | array .. => true
  | _ => false

/-- The pointers and arrays whose inside, without its qualifiers, is no array. -/
def starLayers : CType → Nat
  | qualified _ inner => inner.starLayers
  | pointer inner | array inner _ =>
    inner.starLayers + if inner.unqualified.isArray then 0 else 1
  | _ => 0

/-- A pointer to the type has a star for each layer, and one more unless the type is an array. -/
theorem spelled_eq {base type : CType} {name managed : String} (hname : base.name? = some name)
    (h : base.BuiltFrom type) :
    type.spelled managed false = managed ++ TypeMapper.stars type.starLayers ∧
      type.spelled managed true = managed ++
        TypeMapper.stars (type.starLayers + if type.unqualified.isArray then 0 else 1) := by
  induction h with
  | base =>
    rw [TypeMapper.spelled_of_name? hname, TypeMapper.spelled_of_name? hname]
    cases base with
    | typedef | enum | record =>
      exact ⟨(TypeMapper.append_stars_zero managed).symm, rfl⟩
    | _ => cases hname
  | qualified _ ih => exact ih
  | pointer _ ih =>
    refine ⟨ih.2, ?_⟩
    rw [spelled, ih.2, TypeMapper.starred, if_pos rfl, ← TypeMapper.append_stars_succ]
    rfl
  | array _ ih => exact ⟨ih.2, ih.2⟩

end CType

/-- What the settings put in the place of a name: the entry of the first mapping of the name, and
without one an address, if the name begins like a handle. -/
def TypeSettings.Substitutes (settings : TypeSettings) (name managed : String) : Prop :=
  (∃ before mapping after, settings.mappings = before ++ mapping :: after ∧
    (∀ other ∈ before, other.native ≠ name) ∧ mapping.native = name ∧ mapping.managed = managed) ∨
  (∀ mapping ∈ settings.mappings, mapping.native ≠ name) ∧
    (∃ start ∈ settings.handlePrefixes, start.toList <+: name.toList) ∧ managed = "nint"

namespace TypeMapper

variable {mapper : TypeMapper} {name managed : String} {base : CType}

theorem mappedName?_eq_some_iff {mappings : List TypeMapping} :
    mappedName? mappings name = some managed ↔
      ∃ before mapping after, mappings = before ++ mapping :: after ∧
        (∀ other ∈ before, other.native ≠ name) ∧ mapping.native = name ∧
        mapping.managed = managed := by
  simp only [mappedName?, Option.map_eq_some_iff, List.find?_eq_some_iff_append, decide_eq_true_eq,
    Bool.not_eq_true', decide_eq_false_iff_not]
  constructor
  · rintro ⟨mapping, ⟨hnative, before, after, hmappings, hbefore⟩, hmanaged⟩
    exact ⟨before, mapping, after, hmappings, hbefore, hnative, hmanaged⟩
  · rintro ⟨before, mapping, after, hmappings, hbefore, hnative, hmanaged⟩
    exact ⟨mapping, ⟨hnative, before, after, hmappings, hbefore⟩, hmanaged⟩

theorem substitute?_eq_some_iff :
    mapper.substitute? name = some managed ↔ mapper.settings.Substitutes name managed := by
  rw [TypeSettings.Substitutes, ← mappedName?_eq_some_iff, substitute?]
  have hmapped : mappedName? mapper.settings.mappings name = none ↔
      ∀ mapping ∈ mapper.settings.mappings, mapping.native ≠ name := by
    simp [mappedName?]
  rw [← hmapped]
  cases mappedName? mapper.settings.mappings name with
  | some found => simp
  | none => simp [@eq_comm String managed]

/-- A substituted name is mapped without a look at the registry. -/
theorem mapAt_of_substitute? (hname : base.name? = some name)
    (hsubstitute : mapper.substitute? name = some managed) (below : Resolver) (pointer : Bool) :
    mapAt mapper below pointer base = some (starred pointer managed) := by
  cases base with
  | typedef synonym =>
    obtain rfl := Option.some.inj hname
    rw [mapAt, typedefAt, hsubstitute]
  | enum tag | record kind tag =>
    obtain rfl : tag = some name := hname
    rw [mapAt, Option.map_some, cleanName, hsubstitute]
    rfl
  | _ => cases hname

theorem delegateAt_of_substitute? (hname : base.name? = some name)
    (hsubstitute : mapper.substitute? name = some managed) (below : Resolver) :
    delegateAt mapper below base = none := by
  cases base with
  | typedef synonym =>
    obtain rfl := Option.some.inj hname
    rw [delegateAt, hsubstitute]
    rfl
  | enum | record => rfl
  | _ => cases hname

theorem map_of_builtFrom {type : CType} (hsubstitute : mapper.substitute? name = some managed)
    (hname : base.name? = some name) (htype : base.BuiltFrom type) :
    mapper.map type = some (managed ++ stars type.starLayers) := by
  rw [← (CType.spelled_eq hname htype).1]
  exact mapAt_of_builtFrom hname (mapAt_of_substitute? hname hsubstitute _)
    (delegateAt_of_substitute? hname hsubstitute _) htype false

/-- With a name that the settings substitute, a type built from it is mapped alike whatever is
registered: the substituted name has a star for each pointer and each array, but for those right
outside of an array. -/
theorem map_of_substitutes {settings : TypeSettings} {type : CType}
    (hsubstitutes : settings.Substitutes name managed) (hname : base.name? = some name)
    (htype : base.BuiltFrom type) (first second : Registry) :
    (TypeMapper.mk settings first).map type = (TypeMapper.mk settings second).map type ∧
      (TypeMapper.mk settings first).map type = some (managed ++ stars type.starLayers) := by
  have hmap (registry : Registry) :
      (TypeMapper.mk settings registry).map type = some (managed ++ stars type.starLayers) :=
    map_of_builtFrom (substitute?_eq_some_iff.mpr hsubstitutes) hname htype
  exact ⟨(hmap first).trans (hmap second).symm, hmap first⟩

def uint32 : CType := CType.typedef "Uint32"

/-- A pointer to a pointer to a constant array. -/
def uint32Rows : CType :=
  .pointer (.pointer (.qualified .constant (.array uint32 (some 3))))

/-- The name stands for a function type. -/
def callbackRegistry : Registry :=
  { typedefs := [("Uint32", .function (.primitive .void) [] false)] }

theorem map_of_substitutes_uint32Rows :
    Config.standard.types.Substitutes "Uint32" "uint" ∧ uint32.name? = some "Uint32" ∧
      uint32.BuiltFrom uint32Rows ∧
      callbackRegistry.typedef? "Uint32" = some (.function (.primitive .void) [] false) ∧
      (TypeMapper.mk Config.standard.types {}).map uint32Rows = some "uint**" ∧
      (TypeMapper.mk Config.standard.types callbackRegistry).map uint32Rows = some "uint**" := by
  have hsubstitute :
      (TypeMapper.mk Config.standard.types {}).substitute? "Uint32" = some "uint" := by
    decide +kernel
  have hsubstitutes : Config.standard.types.Substitutes "Uint32" "uint" :=
    substitute?_eq_some_iff.mp hsubstitute
  have hbuilt : uint32.BuiltFrom uint32Rows := .pointer (.pointer (.qualified (.array .base)))
  obtain ⟨hsame, hmap⟩ := map_of_substitutes hsubstitutes rfl hbuilt {} callbackRegistry
  exact ⟨hsubstitutes, rfl, hbuilt, rfl, hmap, hsame.symm.trans hmap⟩

end TypeMapper

end HeaderInterop
