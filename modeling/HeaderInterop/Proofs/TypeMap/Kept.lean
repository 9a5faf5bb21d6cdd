import HeaderInterop.Proofs.TypeMap.Answers
import HeaderInterop.Proofs.TypeMap.Substituted

/-!
Typedefs that are kept. By value, a typedef that the settings keep goes by its name, and so does a
pointer to it, but with one exception: behind a pointer a function type is looked for first, and that
search looks into kept typedefs too.
-/

namespace HeaderInterop

namespace CType

/-- The type is the base behind that many pointers, with qualifiers at any place. -/
inductive PointersTo (base : CType) : Nat → CType → Prop where
  | base : PointersTo base 0 base
  | qualified {levels qualifier inner} (h : PointersTo base levels inner) :
      PointersTo base levels (.qualified qualifier inner)
  | pointer {levels pointee} (h : PointersTo base levels pointee) :
      PointersTo base (levels + 1) (.pointer pointee)

variable {base type : CType} {levels : Nat} {name : String}

theorem PointersTo.builtFrom (h : base.PointersTo levels type) : base.BuiltFrom type := by
  induction h with
  | base => exact .base
  | qualified _ ih => exact ih.qualified
  | pointer _ ih => exact ih.pointer

/-- Without arrays, the layers that give a star are the pointers. -/
theorem PointersTo.starLayers_eq (hname : base.name? = some name)
    (h : base.PointersTo levels type) :
    type.starLayers = levels ∧ type.unqualified.isArray = false := by
  induction h with
  | base =>
    cases base with
    | typedef | enum | record => exact ⟨rfl, rfl⟩
    | _ => cases hname
  | qualified _ ih => exact ih
  | pointer _ ih =>
    refine ⟨?_, rfl⟩
    rw [starLayers, ih.1, ih.2]
    rfl

end CType

namespace TypeMapper

variable {mapper : TypeMapper} {below : Resolver} {name text : String} {levels : Nat}
  {type : CType}

/-- What the mapping makes of a kept typedef by itself. -/
theorem mapAt_of_kept (hkept : name ∈ mapper.settings.keepTypedefs)
    (hsubstitute : mapper.substitute? name = none) (pointer : Bool) :
    mapAt mapper below pointer (.typedef name) = some (starred pointer name) := by
  have hisKept : mapper.isKept name = true := by simp [isKept, hkept]
  rw [mapAt, typedefAt, hsubstitute, hisKept]
  rfl

/-- Qualifiers alone make no difference. -/
theorem mapAt_of_pointersTo_zero {base : CType} (h : base.PointersTo 0 type) (pointer : Bool) :
    mapAt mapper below pointer type = mapAt mapper below pointer base := by
  generalize hlevels : 0 = levels at h
  induction h with
  | base => rfl
  | qualified _ ih =>
    rw [mapAt]
    exact ih hlevels
  | pointer => cases hlevels

/-- A function type is only found right behind the innermost pointer. -/
theorem delegateAt_of_pointersTo {base : CType} (h : base.PointersTo levels type) :
    delegateAt mapper below type = if levels = 0 then delegateAt mapper below base else none := by
  induction h with
  | base => rfl
  | qualified _ ih =>
    rw [delegateAt]
    exact ih
  | pointer => rfl

/-- The pointers to a typedef of a function type are pointers to its function pointer. -/
theorem mapAt_of_pointersTo_callback
    (hdelegate : delegateAt mapper below (.typedef name) = some text)
    (h : (CType.typedef name).PointersTo (levels + 1) type) (pointer : Bool) :
    mapAt mapper below pointer type = some (starred pointer (text ++ stars levels)) := by
  -- Only the innermost pointer meets the function type; each one around it adds its star.
  generalize hcount : levels + 1 = count at h
  induction h generalizing levels pointer with
  | base => cases hcount
  | qualified _ ih =>
    rw [mapAt]
    exact ih pointer hcount
  | @pointer count pointee hpointee ih =>
    obtain rfl := Nat.succ.inj hcount
    rw [mapAt, delegateAt_of_pointersTo hpointee]
    cases levels with
    | zero =>
      rw [if_pos rfl, hdelegate, append_stars_zero]
      rfl
    | succ levels =>
      rw [if_neg (Nat.succ_ne_zero levels), isConstVoid_of_builtFrom rfl hpointee.builtFrom,
        ih true rfl, append_stars_succ]
      rfl

/-- A function pointer does not end in a star. -/
theorem ne_append_star (h : text = "nint" ∨ ∃ parts, text = delegateText parts) :
    text ≠ name ++ "*" := by
  intro hstar
  have hlast : text.toList.getLast? = some '*' := by
    have hchar : "*".toList = ['*'] := by decide
    rw [hstar, String.toList_append, hchar, List.getLast?_concat]
  rcases h with rfl | ⟨parts, rfl⟩
  · have hchars : "nint".toList = ['n', 'i', 'n', 't'] := by decide
    rw [hchars] at hlast
    simp at hlast
  · rw [getLast?_delegateText] at hlast
    simp at hlast

theorem not_substitutes_iff :
    (∀ managed, ¬ mapper.settings.Substitutes name managed) ↔ mapper.substitute? name = none := by
  simp only [← substitute?_eq_some_iff, Option.eq_none_iff_forall_ne_some, ne_eq]

/-- A star for each pointer, unless there is a pointer and the typedef is for a function type. -/
theorem map_eq_iff_of_kept (hkept : name ∈ mapper.settings.keepTypedefs)
    (hsubstitute : mapper.substitute? name = none)
    (htype : (CType.typedef name).PointersTo levels type) :
    mapper.map type = some (name ++ stars levels) ↔
      levels = 0 ∨ ∀ ret params variadic, ¬ mapper.IsCallback ret params variadic (.typedef name) := by
  rw [map_eq]
  cases hdelegate : delegateAt mapper mapper.beneath (.typedef name) with
  | none =>
    have hnone : ∀ ret params variadic, ¬ mapper.IsCallback ret params variadic (.typedef name) :=
      delegate_eq_none_iff.mp hdelegate
    have hplain := mapAt_of_builtFrom rfl (mapAt_of_kept hkept hsubstitute) hdelegate htype.builtFrom
      false
    rw [hplain, (CType.spelled_eq rfl htype.builtFrom).1, (htype.starLayers_eq rfl).1]
    exact iff_of_true rfl (.inr hnone)
  | some text =>
    have htop : mapper.top.delegate (.typedef name) = some text := hdelegate
    obtain ⟨⟨ret, params, variadic, hcallback⟩, htext⟩ := isCallback_of_delegate htop
    rcases Nat.eq_zero_or_pos levels with rfl | hpos
    · rw [mapAt_of_pointersTo_zero htype, mapAt_of_kept hkept hsubstitute, append_stars_zero]
      exact iff_of_true rfl (.inl rfl)
    · obtain ⟨levels, rfl⟩ : ∃ outer, levels = outer + 1 := ⟨levels - 1, by omega⟩
      rw [mapAt_of_pointersTo_callback hdelegate htype]
      refine iff_of_false (fun hstars => ?_) ?_
      · rw [append_stars_succ_front] at hstars
        exact ne_append_star htext ((String.append_left_inj _).mp (Option.some.inj hstars))
      · rintro (hzero | hnone)
        · omega
        · exact hnone ret params variadic hcallback

/-! The calls for a kept typedef. -/

/-- The search behind the innermost pointer is the one for the typedef. -/
theorem returns_functionType_of_pointersTo {base : CType} {answer : Answer}
    (h : base.PointersTo 0 type) :
    mapper.Returns (.functionType type) answer ↔ mapper.Returns (.functionType base) answer := by
  generalize hlevels : 0 = levels at h
  induction h with
  | base => rfl
  | qualified _ ih => exact returns_functionType_qualified_iff.trans (ih hlevels)
  | pointer => cases hlevels

/-- Behind any other pointer there is no function type to find. -/
theorem returns_functionType_none_of_pointersTo {base : CType}
    (h : base.PointersTo (levels + 1) type) :
    mapper.Returns (.functionType type) (.function none) := by
  generalize hcount : levels + 1 = count at h
  induction h with
  | base => cases hcount
  | qualified _ ih => exact returns_functionType_qualified_iff.mpr (ih hcount)
  | pointer => exact .notFound rfl fun _ hpointer => by cases hpointer

theorem returns_map_of_kept (hkept : name ∈ mapper.settings.keepTypedefs)
    (hsubstitute : mapper.substitute? name = none)
    (htype : (CType.typedef name).PointersTo levels type)
    (hfunction : levels = 0 ∨ mapper.Returns (.functionType (.typedef name)) (.function none))
    (pointer : Bool) :
    mapper.Returns (.map pointer type) (.name (some (starred pointer (name ++ stars levels)))) := by
  induction htype generalizing pointer with
  | base =>
    have hisKept : mapper.isKept name = true := by simp [isKept, hkept]
    rw [append_stars_zero]
    exact .kept hsubstitute hisKept
  | qualified _ ih => exact .qualified (ih hfunction pointer)
  | @pointer levels pointee hpointee ih =>
    have hnone := hfunction.resolve_left (Nat.succ_ne_zero levels)
    have hsearch : mapper.Returns (.functionType pointee) (.function none) := by
      cases levels with
      | zero => exact (returns_functionType_of_pointersTo hpointee).mpr hnone
      | succ levels => exact returns_functionType_none_of_pointersTo hpointee
    have hvoid := isConstVoid_of_builtFrom rfl hpointee.builtFrom
    have hstar : starred true (name ++ stars levels) = name ++ stars (levels + 1) :=
      (append_stars_succ name levels).symm
    have hmap := ih (Or.inr hnone) true
    rw [hstar] at hmap
    exact .pointer (.pointee hsearch hvoid hmap)

/-- A call for a pointer returns only if the search for a function type does. -/
theorem exists_returns_functionType_of_pointersTo {pointer : Bool} {answer : Answer}
    (htype : (CType.typedef name).PointersTo (levels + 1) type)
    (h : mapper.Returns (.map pointer type) answer) :
    ∃ found, mapper.Returns (.functionType (.typedef name)) found := by
  generalize hcount : levels + 1 = count at htype
  induction htype generalizing levels pointer answer with
  | base => cases hcount
  | qualified _ ih =>
    cases h with
    | qualified h => exact ih h hcount
  | @pointer outer pointee hpointee ih =>
    cases outer with
    | zero =>
      cases h with
      | pointer h =>
        cases h with
        | callback hfunction | address hfunction | pointee hfunction =>
          exact ⟨_, (returns_functionType_of_pointersTo hpointee).mp hfunction⟩
    | succ outer =>
      have hnone : mapper.Returns _ _ := returns_functionType_none_of_pointersTo hpointee
      have hvoid := isConstVoid_of_builtFrom rfl hpointee.builtFrom
      cases h with
      | pointer h =>
        cases h with
        | callback hfunction => cases hnone.unique hfunction
        | address _ hconst => simp [hvoid] at hconst
        | pointee _ _ h => exact ih h rfl

theorem returns_functionType_of_returns_map (hkept : name ∈ mapper.settings.keepTypedefs)
    (hsubstitute : mapper.substitute? name = none)
    (htype : (CType.typedef name).PointersTo (levels + 1) type)
    (h : mapper.Returns (.map false type) (.name (some (name ++ stars (levels + 1))))) :
    mapper.Returns (.functionType (.typedef name)) (.function none) := by
  obtain ⟨answer, hsearch⟩ := exists_returns_functionType_of_pointersTo htype h
  obtain ⟨found, rfl, hcallback⟩ := hsearch.exists_isCallback
  cases found with
  | none => exact hsearch
  | some function =>
    obtain ⟨ret, params, variadic, -, hisCallback⟩ := hcallback function rfl
    have hmap : mapper.map type = some (name ++ stars (levels + 1)) :=
      (Answer.name.inj h.eq_map).symm
    have hnone := (map_eq_iff_of_kept hkept hsubstitute htype).mp hmap
    exact absurd hisCallback (hnone.resolve_left (Nat.succ_ne_zero levels) ret params variadic)

/-- Behind pointers and qualifiers, a kept typedef that is not substituted is its name with one star
for each pointer, whatever the headers declare, if and only if there is no pointer or the search for
a function type behind it comes to an end and finds none. Without cycles of typedefs the search has
an end, and finds none if and only if the typedef is not for a function type. -/
theorem map_of_kept_iff (hkept : name ∈ mapper.settings.keepTypedefs)
    (hsubstitutes : ∀ managed, ¬ mapper.settings.Substitutes name managed)
    (htype : (CType.typedef name).PointersTo levels type) :
    (mapper.Returns (.map false type) (.name (some (name ++ stars levels))) ↔
        levels = 0 ∨ mapper.Returns (.functionType (.typedef name)) (.function none)) ∧
      (mapper.registry.Acyclic →
        (mapper.map type = some (name ++ stars levels) ↔ levels = 0 ∨
          ∀ ret params variadic, ¬ mapper.IsCallback ret params variadic (.typedef name))) := by
  have hsubstitute : mapper.substitute? name = none := not_substitutes_iff.mp hsubstitutes
  refine ⟨⟨fun h => ?_, fun h => returns_map_of_kept hkept hsubstitute htype h false⟩,
    fun _ => map_eq_iff_of_kept hkept hsubstitute htype⟩
  rcases Nat.eq_zero_or_eq_succ_pred levels with hzero | hsucc
  · exact Or.inl hzero
  · rw [hsucc] at htype h
    exact Or.inr (returns_functionType_of_returns_map hkept hsubstitute htype h)

def camera : CType := CType.typedef "SDL_CameraDeviceID"

/-- `typedef Uint32 SDL_CameraDeviceID;`, which the standard settings keep. -/
def cameraMapper : TypeMapper where
  settings := Config.standard.types
  registry := { typedefs := [("SDL_CameraDeviceID", uint32)] }

theorem map_of_kept_iff_camera :
    "SDL_CameraDeviceID" ∈ cameraMapper.settings.keepTypedefs ∧
      (∀ managed, ¬ cameraMapper.settings.Substitutes "SDL_CameraDeviceID" managed) ∧
      camera.PointersTo 2 (.pointer (.qualified .constant (.pointer camera))) ∧
      cameraMapper.registry.Acyclic ∧
      cameraMapper.Returns (.functionType camera) (.function none) ∧
      cameraMapper.Returns (.map false (.pointer (.qualified .constant (.pointer camera))))
        (.name (some "SDL_CameraDeviceID**")) ∧
      cameraMapper.map (.pointer (.qualified .constant (.pointer camera))) =
        some "SDL_CameraDeviceID**" := by
  have hkept : "SDL_CameraDeviceID" ∈ cameraMapper.settings.keepTypedefs := by decide
  have hsubstitute : cameraMapper.substitute? "SDL_CameraDeviceID" = none := by decide +kernel
  have hsubstitutes := not_substitutes_iff.mpr hsubstitute
  have hpointers : camera.PointersTo 2 (.pointer (.qualified .constant (.pointer camera))) :=
    .pointer (.qualified (.pointer .base))
  have hplain : ∀ ret params variadic, ¬ cameraMapper.IsCallback ret params variadic camera :=
    delegate_eq_none_iff.mp (by decide +kernel)
  have hacyclic : cameraMapper.registry.Acyclic :=
    Registry.acyclic_of_pairwise (by decide) (by decide)
  have hsearch := returns_functionType_of_not_isCallback hacyclic camera hplain
  obtain ⟨hreturns, hmap⟩ := map_of_kept_iff hkept hsubstitutes hpointers
  exact ⟨hkept, hsubstitutes, hpointers, hacyclic, hsearch, hreturns.mpr (.inr hsearch),
    (hmap hacyclic).mpr (.inr hplain)⟩

def hook : CType := CType.typedef "Hook"

/-- `typedef void Hook(int);`, kept by its name. -/
def hookMapper : TypeMapper where
  settings := { Config.standard.types with keepTypedefs := ["Hook"] }
  registry := { typedefs := [("Hook", .function (.primitive .void) [.primitive .int] false)] }

/-- A pointer to a kept function type does not go by its name. -/
theorem map_kept_ne_hook :
    "Hook" ∈ hookMapper.settings.keepTypedefs ∧
      (∀ managed, ¬ hookMapper.settings.Substitutes "Hook" managed) ∧
      hook.PointersTo 1 (.pointer hook) ∧ hookMapper.registry.Acyclic ∧
      hookMapper.map hook = some "Hook" ∧
      hookMapper.map (.pointer hook) = some "delegate* unmanaged<int, void>" ∧
      hookMapper.map (.pointer hook) ≠ some ("Hook" ++ stars 1) := by
  have hsubstitute : hookMapper.substitute? "Hook" = none := by decide +kernel
  have hacyclic : hookMapper.registry.Acyclic :=
    Registry.acyclic_of_pairwise (by decide) (by decide)
  exact ⟨by decide, not_substitutes_iff.mpr hsubstitute, .pointer .base, hacyclic,
    by decide +kernel, by decide +kernel, by decide +kernel⟩

end TypeMapper

end HeaderInterop
