import HeaderInterop.Proofs.TypeMap.Callbacks

/-!
References to names. The names in a managed type are the tag of a record or enum, the name of a kept
typedef, or what one of these is substituted with. Which they are can be told from the native type.
-/

namespace HeaderInterop.TypeMapper

variable {mapper : TypeMapper} {name : String}

/-- The name that a typedef is known by, if it is substituted or kept. -/
def typedefName? (mapper : TypeMapper) (synonym : String) : Option String :=
  match mapper.substitute? synonym with
  | some managed => some managed
  | none => if mapper.isKept synonym then some synonym else none

/-- The name is put into the managed type: for a tag or a typedef, behind pointers, arrays,
qualifiers and typedefs that are not known by a name, or in a part of a function pointer. A function
pointer has parts only if each of them has a managed name. -/
inductive Refers (mapper : TypeMapper) (name : String) : CType → Prop where
  | enum {tag} (h : Names name (mapper.cleanName tag)) : Refers mapper name (.enum (some tag))
  | record {kind tag} (h : Names name (mapper.cleanName tag)) :
      Refers mapper name (.record kind (some tag))
  | named {synonym managed} (hname : mapper.typedefName? synonym = some managed)
      (h : Names name managed) : Refers mapper name (.typedef synonym)
  | typedef {synonym underlying} (hname : mapper.typedefName? synonym = none)
      (htypedef : mapper.registry.typedef? synonym = some underlying)
      (h : Refers mapper name underlying) : Refers mapper name (.typedef synonym)
  | qualified {qualifier inner} (h : Refers mapper name inner) :
      Refers mapper name (.qualified qualifier inner)
  | array {element size} (h : Refers mapper name element) : Refers mapper name (.array element size)
  | pointer {pointee}
      (hplain : ∀ ret params variadic, ¬ IsCallback mapper ret params variadic pointee)
      (h : Refers mapper name pointee) : Refers mapper name (.pointer pointee)
  | part {pointee ret params part} (hcallback : IsCallback mapper ret params false pointee)
      (hparts : ∀ other ∈ params ++ [ret], (mapper.partText? other).isSome)
      (hpart : part ∈ params ++ [ret]) (htruth : mapper.truthValue? part = none)
      (h : Refers mapper name part) : Refers mapper name (.pointer pointee)
  | truthValue {pointee ret params part integer}
      (hcallback : IsCallback mapper ret params false pointee)
      (hparts : ∀ other ∈ params ++ [ret], (mapper.partText? other).isSome)
      (hpart : part ∈ params ++ [ret]) (htruth : mapper.truthValue? part = some integer)
      (h : Names name integer) : Refers mapper name (.pointer pointee)

theorem not_refers_of_isConstVoid {type : CType} (h : isConstVoid type = true) :
    ¬ Refers mapper name type := by
  intro hrefers
  unfold isConstVoid at h
  split at h
  · cases hrefers with
    | qualified hinner => cases hinner
  · cases h

theorem typedefAt_eq (below : Resolver) (pointer : Bool) (synonym : String) :
    mapper.typedefAt below pointer synonym =
      match mapper.typedefName? synonym with
      | some managed => some (starred pointer managed)
      | none => (mapper.registry.typedef? synonym).bind (below.map pointer) := by
  unfold typedefAt typedefName?
  cases mapper.substitute? synonym with
  | some managed => rfl
  | none => cases mapper.isKept synonym <;> rfl

section Acyclic

variable (hacyclic : mapper.registry.Acyclic)
include hacyclic

theorem mapAt_pointer_of_isCallback {pointer : Bool} {pointee ret : CType} {params : List CType}
    {variadic : Bool} {managed : String}
    (h : mapAt mapper mapper.top pointer (.pointer pointee) = some managed)
    (hcallback : IsCallback mapper ret params variadic pointee) :
    managed = starred pointer (mapper.signatureText ret params variadic) := by
  rw [mapAt, delegateAt_top hacyclic, delegate_of_isCallback hacyclic hcallback] at h
  exact (Option.some.inj h).symm

theorem mapAt_pointer_of_plain {pointer : Bool} {pointee : CType}
    (h : ∀ ret params variadic, ¬ IsCallback mapper ret params variadic pointee) :
    mapAt mapper mapper.top pointer (.pointer pointee) =
      (if isConstVoid pointee then some "void*" else mapper.top.map true pointee).map
        (starred pointer) := by
  have hdelegate : mapper.top.delegate pointee = none := by
    rw [Option.eq_none_iff_forall_ne_some]
    intro text htext
    obtain ⟨ret, params, variadic, hcallback⟩ := (isCallback_of_delegate htext).1
    exact h ret params variadic hcallback
  rw [mapAt, delegateAt_top hacyclic, hdelegate, mapAt_top hacyclic]

/-- A pointer has the names of what it points to, given this for the pointee and the parts of a
callback. -/
theorem names_pointer_iff {pointer : Bool} {pointee : CType} {managed : String}
    (h : mapAt mapper mapper.top pointer (.pointer pointee) = some managed)
    (hpointee : ∀ text, mapper.top.map true pointee = some text →
      (Names name text ↔ Refers mapper name pointee))
    (hparts : ∀ part, Relation.TransGen mapper.registry.Under part (.pointer pointee) →
      ∀ text, mapper.map part = some text → (Names name text ↔ Refers mapper name part)) :
    Names name managed ↔ Refers mapper name (.pointer pointee) := by
  by_cases hplain : ∀ ret params variadic, ¬ IsCallback mapper ret params variadic pointee
  · have hrefers : Refers mapper name (.pointer pointee) ↔ Refers mapper name pointee := by
      refine ⟨fun hrefers => ?_, .pointer hplain⟩
      cases hrefers with
      | pointer _ hrefers => exact hrefers
      | part hcallback | truthValue hcallback => exact absurd hcallback (hplain _ _ _)
    rw [mapAt_pointer_of_plain hacyclic hplain] at h
    obtain ⟨text, htext, rfl⟩ := Option.map_eq_some_iff.mp h
    rw [names_starred, hrefers]
    split at htext
    next hvoid =>
      obtain rfl := Option.some.inj htext
      exact iff_of_false not_names_voidPointer (not_refers_of_isConstVoid hvoid)
    next => exact hpointee text htext
  · constructor
    · intro hnames
      simp only [not_forall, not_not] at hplain
      obtain ⟨ret, params, variadic, hcallback⟩ := hplain
      rw [mapAt_pointer_of_isCallback hacyclic h hcallback, names_starred,
        names_signatureText] at hnames
      obtain ⟨rfl, hsome, part, hpart, text, htext, hnames⟩ := hnames
      rw [partText?_eq] at htext
      cases htruth : mapper.truthValue? part with
      | some integer =>
        rw [htruth] at htext
        obtain rfl := Option.some.inj htext
        exact .truthValue hcallback hsome hpart htruth hnames
      | none =>
        rw [htruth] at htext
        have hrefers := (hparts part (hcallback.part_under hpart) text htext).mp hnames
        exact .part hcallback hsome hpart htruth hrefers
    · intro hrefers
      cases hrefers with
      | pointer hnone => exact absurd hnone hplain
      | @part _ ret params part hcallback hsome hpart htruth hrefers =>
        rw [mapAt_pointer_of_isCallback hacyclic h hcallback, names_starred, names_signatureText]
        obtain ⟨text, htext⟩ := Option.isSome_iff_exists.mp (hsome part hpart)
        refine ⟨rfl, hsome, part, hpart, text, htext, ?_⟩
        rw [partText?_eq, htruth] at htext
        exact (hparts part (hcallback.part_under hpart) text htext).mpr hrefers
      | @truthValue _ ret params part integer hcallback hsome hpart htruth hnames =>
        rw [mapAt_pointer_of_isCallback hacyclic h hcallback, names_starred, names_signatureText]
        refine ⟨rfl, hsome, part, hpart, integer, ?_, hnames⟩
        rw [partText?_eq, htruth]

/-- A managed type has exactly the names that its native type refers to. -/
theorem names_map_iff {type : CType} {pointer : Bool} {managed : String}
    (h : mapper.top.map pointer type = some managed) :
    Names name managed ↔ Refers mapper name type := by
  induction type using (Registry.wellFounded_under hacyclic).transGen.induction
    generalizing pointer managed with
  | _ type ih =>
    rw [← mapAt_top hacyclic] at h
    cases type with
    | primitive kind =>
      rw [mapAt] at h
      refine iff_of_false (not_names_primitive h) fun hrefers => ?_
      cases hrefers
    | qualified qualifier inner =>
      rw [mapAt, mapAt_top hacyclic] at h
      rw [ih inner (.single .qualified) h]
      refine ⟨.qualified, fun hrefers => ?_⟩
      cases hrefers with
      | qualified hinner => exact hinner
    | array element size =>
      rw [mapAt, mapAt_top hacyclic] at h
      rw [ih element (.single .element) h]
      refine ⟨.array, fun hrefers => ?_⟩
      cases hrefers with
      | array helement => exact helement
    | enum tag =>
      obtain ⟨tag, rfl, rfl⟩ := Option.map_eq_some_iff.mp h
      rw [names_starred]
      refine ⟨.enum, fun hrefers => ?_⟩
      cases hrefers with
      | enum htag => exact htag
    | record kind tag =>
      obtain ⟨tag, rfl, rfl⟩ := Option.map_eq_some_iff.mp h
      rw [names_starred]
      refine ⟨.record, fun hrefers => ?_⟩
      cases hrefers with
      | record htag => exact htag
    | typedef synonym =>
      rw [mapAt, typedefAt_eq] at h
      cases hname : mapper.typedefName? synonym with
      | some known =>
        rw [hname] at h
        obtain rfl := Option.some.inj h
        rw [names_starred]
        refine ⟨.named hname, fun hrefers => ?_⟩
        cases hrefers with
        | named hother hnames =>
          rw [hname] at hother
          obtain rfl := Option.some.inj hother
          exact hnames
        | typedef hnone =>
          rw [hname] at hnone
          cases hnone
      | none =>
        rw [hname] at h
        obtain ⟨underlying, htypedef, hmap⟩ := Option.bind_eq_some_iff.mp h
        rw [ih underlying (.single (.typedef htypedef)) hmap]
        refine ⟨.typedef hname htypedef, fun hrefers => ?_⟩
        cases hrefers with
        | named hother =>
          rw [hname] at hother
          cases hother
        | typedef _ hother hunderlying =>
          rw [htypedef] at hother
          obtain rfl := Option.some.inj hother
          exact hunderlying
    | function ret params variadic => cases h
    | pointer pointee =>
      exact names_pointer_iff hacyclic h (fun _ htext => ih pointee (.single .pointee) htext)
        fun part hpart _ htext => ih part hpart htext

end Acyclic

end HeaderInterop.TypeMapper
