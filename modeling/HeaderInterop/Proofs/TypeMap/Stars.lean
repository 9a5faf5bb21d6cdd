import HeaderInterop.Config.Default
import HeaderInterop.Proofs.TypeMap.References

/-!
Stars of managed types. Behind qualifiers and typedefs that are not known by a name, mapping comes to
the core of a type. Unless the core is nothing, an array or a function, a pointer to the type and an
array of it are the type with one more star.
-/

namespace HeaderInterop.TypeMapper

/-- A star for each level of pointers. -/
def stars (levels : Nat) : String :=
  String.ofList (List.replicate levels '*')

theorem append_stars_zero (managed : String) : managed ++ stars 0 = managed :=
  String.append_empty

theorem append_stars_succ (managed : String) (levels : Nat) :
    managed ++ stars (levels + 1) = managed ++ stars levels ++ "*" := by
  have hstar : String.ofList ['*'] = "*" := by decide
  rw [stars, List.replicate_succ', String.ofList_append, ← String.append_assoc, hstar]
  rfl

theorem append_stars_succ_front (managed : String) (levels : Nat) :
    managed ++ stars (levels + 1) = managed ++ "*" ++ stars levels := by
  have hstar : String.ofList ['*'] = "*" := by decide
  rw [String.append_assoc, ← hstar, stars, stars, ← String.ofList_append]
  rfl

/-- The type that mapping goes on with, behind a qualifier or a typedef that has no managed name of
its own. -/
def behind? (mapper : TypeMapper) : CType → Option CType
  | .qualified _ inner => some inner
  | .typedef name =>
    match mapper.typedefName? name with
    | some _ => none
    | none => mapper.registry.typedef? name
  | _ => none

/-- The type that mapping comes to in the end. -/
inductive IsCore (mapper : TypeMapper) : CType → CType → Prop where
  | core {type} (h : mapper.behind? type = none) : IsCore mapper type type
  | behind {type next core} (h : mapper.behind? type = some next) (hcore : IsCore mapper next core) :
      IsCore mapper type core

variable {mapper : TypeMapper} {type next core : CType}

theorem behind?_typedef {name : String} (hname : mapper.typedefName? name = none) :
    mapper.behind? (.typedef name) = mapper.registry.typedef? name := by
  rw [behind?, hname]

theorem behind?_typedef_eq_some {name : String} :
    mapper.behind? (.typedef name) = some next ↔
      mapper.typedefName? name = none ∧ mapper.registry.typedef? name = some next := by
  rw [behind?]
  cases mapper.typedefName? name <;> simp

theorem under_of_behind? (h : mapper.behind? type = some next) :
    mapper.registry.Under next type := by
  cases type with
  | qualified qualifier inner =>
    obtain rfl := Option.some.inj h
    exact .qualified
  | typedef name => exact .typedef (behind?_typedef_eq_some.mp h).2
  | _ => cases h

theorem IsCore.unique {other : CType} (h : mapper.IsCore type core)
    (hother : mapper.IsCore type other) : other = core := by
  induction h with
  | core hend =>
    cases hother with
    | core => rfl
    | behind hnext => simp [hend] at hnext
  | behind hnext _ ih =>
    cases hother with
    | core hend => simp [hend] at hnext
    | behind hsame hrest =>
      rw [hnext, Option.some.injEq] at hsame
      exact ih (hsame ▸ hrest)

section Acyclic

variable (hacyclic : mapper.registry.Acyclic)
include hacyclic

theorem exists_isCore (type : CType) : ∃ core, mapper.IsCore type core := by
  induction type using (Registry.wellFounded_under hacyclic).induction with
  | _ type ih =>
    cases hnext : mapper.behind? type with
    | none => exact ⟨type, .core hnext⟩
    | some next =>
      obtain ⟨core, hcore⟩ := ih next (under_of_behind? hnext)
      exact ⟨core, .behind hnext hcore⟩

theorem top_map_behind (h : mapper.behind? type = some next) (pointer : Bool) :
    mapper.top.map pointer type = mapper.top.map pointer next := by
  rw [← mapAt_top hacyclic]
  cases type with
  | qualified qualifier inner =>
    obtain rfl := Option.some.inj h
    rw [mapAt, mapAt_top hacyclic]
  | typedef name =>
    obtain ⟨hname, htypedef⟩ := behind?_typedef_eq_some.mp h
    rw [mapAt, typedefAt_eq, hname, htypedef]
    rfl
  | _ => cases h

theorem top_map_array (pointer : Bool) (element : CType) (size : Option Nat) :
    mapper.top.map pointer (.array element size) = mapper.top.map true element := by
  rw [← mapAt_top hacyclic, mapAt, mapAt_top hacyclic]

/-- Asked for behind a pointer, a type has one more star than by value. -/
theorem top_map_star (hcore : mapper.IsCore type core) (hvoid : core ≠ .primitive .void)
    (harray : ∀ element size, core ≠ .array element size) :
    mapper.top.map true type = (mapper.top.map false type).map (· ++ "*") := by
  induction hcore with
  | @core type hend =>
    rw [← mapAt_top hacyclic, ← mapAt_top hacyclic]
    cases type with
    | primitive kind =>
      have hkind : kind ≠ .void := fun hkind => hvoid (hkind ▸ rfl)
      rw [mapAt, mapAt, primitive?, primitive?, if_neg hkind, if_neg hkind, Option.map_map]
      rfl
    | enum name | record kind name =>
      rw [mapAt, mapAt, Option.map_map]
      rfl
    | typedef name =>
      rw [mapAt, mapAt, typedefAt_eq, typedefAt_eq]
      cases hname : mapper.typedefName? name with
      | some managed => rfl
      | none =>
        rw [behind?_typedef hname] at hend
        rw [hend]
        rfl
    | pointer pointee =>
      rw [mapAt, mapAt, Option.map_map]
      rfl
    | function ret params variadic => rfl
    | qualified qualifier inner => cases hend
    | array element size => exact absurd rfl (harray element size)
  | behind hnext _ ih =>
    rw [top_map_behind hacyclic hnext, top_map_behind hacyclic hnext, ih hvoid harray]

end Acyclic

/-! Levels of pointers -/

theorem isCore_of_isConstVoid (h : isConstVoid type = true) :
    mapper.IsCore type (.primitive .void) := by
  unfold isConstVoid at h
  split at h
  · exact .behind rfl (.core rfl)
  · cases h

theorem isCore_pointer (pointee : CType) : mapper.IsCore (.pointer pointee) (.pointer pointee) :=
  .core rfl

/-- What pointers to the type depend on: it comes to something with a value, that is no array and
no function. -/
structure IsPlain (mapper : TypeMapper) (type : CType) : Prop where
  not_void : ¬ mapper.IsCore type (.primitive .void)
  not_array : ∀ element size, ¬ mapper.IsCore type (.array element size)
  not_callback : ∀ ret params variadic, ¬ IsCallback mapper ret params variadic type

theorem isPlain_pointer (pointee : CType) : mapper.IsPlain (.pointer pointee) where
  not_void hcore := by cases (isCore_pointer pointee).unique hcore
  not_array _ _ hcore := by cases (isCore_pointer pointee).unique hcore
  not_callback _ _ _ hcallback := by cases hcallback

theorem IsPlain.behind (hplain : mapper.IsPlain next) (h : mapper.behind? type = some next) :
    mapper.IsPlain type := by
  have hnext {core : CType} (hcore : mapper.IsCore type core) : mapper.IsCore next core := by
    cases hcore with
    | core hend => simp [h] at hend
    | behind hsame hrest =>
      rw [h, Option.some.injEq] at hsame
      exact hsame ▸ hrest
  refine ⟨fun hcore => hplain.not_void (hnext hcore),
    fun element size hcore => hplain.not_array element size (hnext hcore), ?_⟩
  intro ret params variadic hcallback
  cases hcallback with
  | function => cases h
  | qualified hinner =>
    obtain rfl := Option.some.inj h
    exact hplain.not_callback ret params variadic hinner
  | typedef hsubstitute htypedef hunderlying =>
    rw [(behind?_typedef_eq_some.mp h).2, Option.some.injEq] at htypedef
    exact hplain.not_callback ret params variadic (htypedef ▸ hunderlying)

/-- The type is the base behind that many pointers, with qualifiers and typedefs to look through
at any place. -/
inductive PointsTo (mapper : TypeMapper) (base : CType) : Nat → CType → Prop where
  | base : PointsTo mapper base 0 base
  | behind {levels type next} (h : mapper.behind? type = some next)
      (hnext : PointsTo mapper base levels next) : PointsTo mapper base levels type
  | pointer {levels pointee} (h : PointsTo mapper base levels pointee) :
      PointsTo mapper base (levels + 1) (.pointer pointee)

theorem PointsTo.isPlain {base : CType} {levels : Nat} (h : mapper.PointsTo base levels type)
    (hbase : mapper.IsPlain base) : mapper.IsPlain type := by
  induction h with
  | base => exact hbase
  | behind hnext _ ih => exact ih.behind hnext
  | pointer => exact isPlain_pointer _

section Acyclic

variable (hacyclic : mapper.registry.Acyclic)
include hacyclic

theorem IsPlain.top_map_star (hplain : mapper.IsPlain type) :
    mapper.top.map true type = (mapper.map type).map (· ++ "*") := by
  obtain ⟨core, hcore⟩ := exists_isCore hacyclic type
  refine TypeMapper.top_map_star hacyclic hcore (fun hvoid => hplain.not_void (hvoid ▸ hcore)) ?_
  exact fun element size harray => hplain.not_array element size (harray ▸ hcore)

theorem IsPlain.map_pointer (hplain : mapper.IsPlain type) :
    mapper.map (.pointer type) = (mapper.map type).map (· ++ "*") := by
  have hconst : isConstVoid type = false :=
    Bool.eq_false_iff.mpr fun hvoid => hplain.not_void (isCore_of_isConstVoid hvoid)
  have hmap : mapper.map (.pointer type) = mapAt mapper mapper.top false (.pointer type) :=
    (mapAt_top hacyclic false (.pointer type)).symm
  rw [hmap, mapAt_pointer_of_plain hacyclic hplain.not_callback, hconst,
    ← hplain.top_map_star hacyclic]
  exact Option.map_id'

theorem IsPlain.map_array (hplain : mapper.IsPlain type) (size : Option Nat) :
    mapper.map (.array type size) = (mapper.map type).map (· ++ "*") :=
  (top_map_array hacyclic false type size).trans (hplain.top_map_star hacyclic)

theorem map_of_pointsTo {base : CType} {levels : Nat} (h : mapper.PointsTo base levels type)
    (hbase : mapper.IsPlain base) :
    mapper.map type = (mapper.map base).map (· ++ stars levels) := by
  induction h with
  | base =>
    cases mapper.map base with
    | none => rfl
    | some managed => rw [Option.map_some, append_stars_zero]
  | behind hnext _ ih => exact (top_map_behind hacyclic hnext false).trans ih
  | @pointer levels pointee hpointee ih =>
    rw [(hpointee.isPlain hbase).map_pointer hacyclic, ih, Option.map_map]
    refine congrArg (fun star => (mapper.map base).map star) (funext fun managed => ?_)
    exact (append_stars_succ managed levels).symm

/-- Every type comes to one core. If that is neither nothing nor an array, and there is no function
type behind qualifiers and typedefs, then a pointer to the type and an array of it have the managed
name of the type and one star, or none if it has none, and so on for each level of pointers. -/
theorem map_pointer_of_core (type : CType) :
    ∃ core, (∀ other, mapper.IsCore type other ↔ other = core) ∧
      (core ≠ .primitive .void → (∀ element size, core ≠ .array element size) →
        (∀ ret params variadic, ¬ IsCallback mapper ret params variadic type) →
        mapper.map (.pointer type) = (mapper.map type).map (· ++ "*") ∧
          (∀ size, mapper.map (.array type size) = (mapper.map type).map (· ++ "*")) ∧
          ∀ levels outer, mapper.PointsTo type levels outer →
            mapper.map outer = (mapper.map type).map (· ++ stars levels)) := by
  obtain ⟨core, hcore⟩ := exists_isCore hacyclic type
  refine ⟨core, fun other => ⟨hcore.unique, fun hother => hother ▸ hcore⟩, ?_⟩
  intro hvoid harray hcallback
  have hplain : mapper.IsPlain type :=
    ⟨fun h => hvoid (hcore.unique h).symm,
      fun element size h => harray element size (hcore.unique h).symm, hcallback⟩
  refine ⟨hplain.map_pointer hacyclic, fun size => hplain.map_array hacyclic size, ?_⟩
  exact fun levels outer houter => map_of_pointsTo hacyclic houter hplain

end Acyclic

def size : CType := CType.typedef "Size"

def sizeRef : CType := CType.typedef "SizeRef"

def sizes : CType := CType.typedef "Sizes"

/-- `typedef unsigned int Size;`, `typedef Size *SizeRef;` and `typedef const SizeRef Sizes;`. -/
def sizeMapper : TypeMapper where
  settings := Config.standard.types
  registry :=
    { typedefs := [("Size", .primitive .unsignedInt), ("SizeRef", .pointer size),
        ("Sizes", .qualified .constant sizeRef)] }

theorem sizeMapper_acyclic : sizeMapper.registry.Acyclic :=
  Registry.acyclic_of_pairwise (by decide) (by decide)

theorem map_pointer_of_core_sizes :
    sizeMapper.registry.Acyclic ∧ sizeMapper.IsCore sizes (.pointer size) ∧
      sizeMapper.PointsTo sizes 2 (.qualified .constant (.pointer (.pointer sizes))) ∧
      sizeMapper.map (.pointer sizes) = some "uint**" ∧
      sizeMapper.map (.array sizes (some 4)) = some "uint**" ∧
      sizeMapper.map (.qualified .constant (.pointer (.pointer sizes))) = some "uint***" := by
  have hsizes : sizeMapper.behind? sizes = some (.qualified .constant sizeRef) :=
    behind?_typedef (by decide +kernel)
  have href : sizeMapper.behind? sizeRef = some (.pointer size) :=
    behind?_typedef (by decide +kernel)
  have hcore : sizeMapper.IsCore sizes (.pointer size) :=
    .behind hsizes (.behind rfl (.behind href (.core rfl)))
  have hplain : sizeMapper.IsPlain sizes :=
    .behind (.behind (.behind (isPlain_pointer size) href) rfl) hsizes
  have hpoints : sizeMapper.PointsTo sizes 2 (.qualified .constant (.pointer (.pointer sizes))) :=
    .behind rfl (.pointer (.pointer .base))
  have hmap : sizeMapper.map sizes = some "uint*" := by decide +kernel
  obtain ⟨core, hcores, hlaw⟩ := map_pointer_of_core sizeMapper_acyclic sizes
  obtain rfl := (hcores _).mp hcore
  obtain ⟨hpointer, harray, hlevels⟩ := hlaw (fun hvoid => by cases hvoid)
    (fun element size harray => by cases harray) hplain.not_callback
  rw [hmap] at hpointer harray hlevels
  exact ⟨sizeMapper_acyclic, hcore, hpoints, hpointer, harray (some 4), hlevels 2 _ hpoints⟩

end HeaderInterop.TypeMapper
