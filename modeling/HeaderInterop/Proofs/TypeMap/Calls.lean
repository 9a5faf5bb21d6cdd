import HeaderInterop.Proofs.TypeMap.Stars

/-!
The mapping as calls. Its functions call each other, and a call may leave the type at hand for what
a typedef stands for. A rule says what a call returns once the calls that it makes have returned,
and no rule bounds how many typedefs are followed: a call that goes on for ever has no answer.
Without cycles among the typedefs every call returns, and with the answer that the levels give.
-/

namespace HeaderInterop.TypeMapper

/-- What is asked of the mapping. -/
inductive Call where
  /-- The managed name of a type; the flag asks for that of a pointer to it. -/
  | map (pointer : Bool) (type : CType)
  /-- The managed name of a pointer to the type. -/
  | pointer (pointee : CType)
  /-- The function type that the type is, behind qualifiers and typedefs. -/
  | functionType (type : CType)
  /-- The managed name of a pointer to that function type. -/
  | functionPointer (type : CType)
  /-- The managed name of a parameter or return type of a function pointer. -/
  | part (type : CType)
  /-- Those of several parts, up to the first that has none. -/
  | parts (types : List CType)

inductive Answer where
  | name (managed : Option String)
  | function (type : Option CType)
  | names (managed : Option (List String))

/-- The call returns the answer. -/
inductive Returns (mapper : TypeMapper) : Call → Answer → Prop where
  | primitive {pointer kind} :
      Returns mapper (.map pointer (.primitive kind)) (.name (primitive? pointer kind))
  | qualified {pointer qualifier inner answer} (h : Returns mapper (.map pointer inner) answer) :
      Returns mapper (.map pointer (.qualified qualifier inner)) answer
  | enum {pointer tag} :
      Returns mapper (.map pointer (.enum tag))
        (.name (tag.map fun name => starred pointer (mapper.cleanName name)))
  | record {pointer kind tag} :
      Returns mapper (.map pointer (.record kind tag))
        (.name (tag.map fun name => starred pointer (mapper.cleanName name)))
  | substituted {pointer name managed} (hsubstitute : mapper.substitute? name = some managed) :
      Returns mapper (.map pointer (.typedef name)) (.name (some (starred pointer managed)))
  | kept {pointer name} (hsubstitute : mapper.substitute? name = none)
      (hkept : mapper.isKept name = true) :
      Returns mapper (.map pointer (.typedef name)) (.name (some (starred pointer name)))
  | unknown {pointer name} (hsubstitute : mapper.substitute? name = none)
      (hkept : mapper.isKept name = false) (htypedef : mapper.registry.typedef? name = none) :
      Returns mapper (.map pointer (.typedef name)) (.name none)
  | synonym {pointer name underlying answer} (hsubstitute : mapper.substitute? name = none)
      (hkept : mapper.isKept name = false)
      (htypedef : mapper.registry.typedef? name = some underlying)
      (h : Returns mapper (.map pointer underlying) answer) :
      Returns mapper (.map pointer (.typedef name)) answer
  | pointer {pointer pointee managed} (h : Returns mapper (.pointer pointee) (.name managed)) :
      Returns mapper (.map pointer (.pointer pointee)) (.name (managed.map (starred pointer)))
  | array {pointer element size answer} (h : Returns mapper (.map true element) answer) :
      Returns mapper (.map pointer (.array element size)) answer
  | function {pointer ret params variadic} :
      Returns mapper (.map pointer (.function ret params variadic)) (.name none)
  | callback {pointee type answer}
      (hfunction : Returns mapper (.functionType pointee) (.function (some type)))
      (h : Returns mapper (.functionPointer type) answer) :
      Returns mapper (.pointer pointee) answer
  | address {pointee} (hfunction : Returns mapper (.functionType pointee) (.function none))
      (hvoid : isConstVoid pointee = true) :
      Returns mapper (.pointer pointee) (.name (some "void*"))
  | pointee {pointee answer} (hfunction : Returns mapper (.functionType pointee) (.function none))
      (hvoid : isConstVoid pointee = false) (h : Returns mapper (.map true pointee) answer) :
      Returns mapper (.pointer pointee) answer
  | found {type ret params variadic} (htype : type.unqualified = .function ret params variadic) :
      Returns mapper (.functionType type) (.function (some (.function ret params variadic)))
  | followed {type name underlying answer} (htype : type.unqualified = .typedef name)
      (hsubstitute : mapper.substitute? name = none)
      (htypedef : mapper.registry.typedef? name = some underlying)
      (h : Returns mapper (.functionType underlying) answer) :
      Returns mapper (.functionType type) answer
  | notFound {type} (hfunction : type.unqualified.isFunction = false)
      (hsynonym : ∀ name, type.unqualified = .typedef name → mapper.substitute? name = none →
        mapper.registry.typedef? name = none) :
      Returns mapper (.functionType type) (.function none)
  | noSignature {type} (htype : ∀ ret params, type ≠ .function ret params false) :
      Returns mapper (.functionPointer type) (.name (some "nint"))
  | signature {ret params parts} (h : Returns mapper (.parts (params ++ [ret])) (.names parts)) :
      Returns mapper (.functionPointer (.function ret params false))
        (.name (some ((parts.map delegateText).getD "nint")))
  | truthValue {type integer} (hboolLike : mapper.boolLikePart? type = some integer) :
      Returns mapper (.part type) (.name (some integer))
  | mapped {type managed} (hboolLike : mapper.boolLikePart? type = none)
      (h : Returns mapper (.map false type) (.name managed)) :
      Returns mapper (.part type)
        (.name (managed.map fun name => (mapper.boolLike? name).getD name))
  | nil : Returns mapper (.parts []) (.names (some []))
  | stop {type rest} (h : Returns mapper (.part type) (.name none)) :
      Returns mapper (.parts (type :: rest)) (.names none)
  | cons {type rest first parts} (h : Returns mapper (.part type) (.name (some first)))
      (hrest : Returns mapper (.parts rest) (.names parts)) :
      Returns mapper (.parts (type :: rest)) (.names (parts.map (first :: ·)))

variable {mapper : TypeMapper}

/-- A call has one answer at most. -/
theorem Returns.unique {call : Call} {answer other : Answer} (h : mapper.Returns call answer)
    (hother : mapper.Returns call other) : other = answer := by
  induction h generalizing other with
  | primitive | enum | record | function | nil =>
    cases hother
    rfl
  | qualified _ ih =>
    cases hother with
    | qualified h => exact ih h
  | substituted hsubstitute => cases hother <;> simp_all
  | kept hsubstitute hkept => cases hother <;> simp_all
  | unknown hsubstitute hkept htypedef => cases hother <;> simp_all
  | synonym hsubstitute hkept htypedef _ ih => cases hother <;> simp_all
  | pointer _ ih =>
    cases hother with
    | pointer h => cases ih h; rfl
  | array _ ih =>
    cases hother with
    | array h => exact ih h
  | callback _ _ ihfunction ih =>
    cases hother with
    | callback hfunction h =>
      cases ihfunction hfunction
      exact ih h
    | address hfunction | pointee hfunction => cases ihfunction hfunction
  | address _ hvoid ihfunction =>
    cases hother with
    | callback hfunction => cases ihfunction hfunction
    | address => rfl
    | pointee _ hnot => simp [hvoid] at hnot
  | pointee _ hvoid _ ihfunction ih =>
    cases hother with
    | callback hfunction => cases ihfunction hfunction
    | address _ hnot => simp [hvoid] at hnot
    | pointee _ _ h => exact ih h
  | found htype => cases hother <;> simp_all [CType.isFunction]
  | followed htype hsubstitute htypedef _ ih => cases hother <;> simp_all
  | notFound hfunction hsynonym =>
    cases hother with
    | found htype => simp [htype, CType.isFunction] at hfunction
    | followed htype hsubstitute htypedef => simp [hsynonym _ htype hsubstitute] at htypedef
    | notFound => rfl
  | noSignature htype =>
    cases hother with
    | noSignature => rfl
    | signature => exact absurd rfl (htype _ _)
  | signature _ ih =>
    cases hother with
    | noSignature htype => exact absurd rfl (htype _ _)
    | signature h => cases ih h; rfl
  | truthValue hboolLike => cases hother <;> simp_all
  | mapped hboolLike _ ih =>
    cases hother with
    | truthValue hsome => simp [hboolLike] at hsome
    | mapped _ h => cases ih h; rfl
  | stop _ ih =>
    cases hother with
    | stop => rfl
    | cons h => cases ih h
  | cons _ _ ih ihrest =>
    cases hother with
    | stop h => cases ih h
    | cons h hrest =>
      cases ih h
      cases ihrest hrest
      rfl

theorem Returns.iff_eq {call : Call} {answer : Answer} (h : mapper.Returns call answer)
    (other : Answer) : mapper.Returns call other ↔ other = answer :=
  ⟨h.unique, fun heq => heq ▸ h⟩

/-- A typedef of itself has no answer. -/
theorem not_returns_self {name : String} (hsubstitute : mapper.substitute? name = none)
    (hkept : mapper.isKept name = false)
    (htypedef : mapper.registry.typedef? name = some (.typedef name)) (pointer : Bool)
    (answer : Answer) : ¬ mapper.Returns (.map pointer (.typedef name)) answer := by
  intro h
  generalize hcall : Call.map pointer (.typedef name) = call at h
  induction h with
  | synonym _ _ hsame _ ih =>
    cases hcall
    rw [htypedef, Option.some.injEq] at hsame
    exact ih (hsame ▸ rfl)
  | _ => cases hcall <;> simp_all

/-! Function types behind qualifiers and typedefs. -/

theorem returns_functionType_qualified_iff {qualifier : Qualifier} {inner : CType}
    {answer : Answer} :
    mapper.Returns (.functionType (.qualified qualifier inner)) answer ↔
      mapper.Returns (.functionType inner) answer := by
  constructor <;> intro h <;> cases h with
  | found htype => exact .found htype
  | followed htype hsubstitute htypedef h => exact .followed htype hsubstitute htypedef h
  | notFound hfunction hsynonym => exact .notFound hfunction hsynonym

theorem isCallback_of_unqualified {ret : CType} {params : List CType} {variadic : Bool}
    {type : CType} (h : IsCallback mapper ret params variadic type.unqualified) :
    IsCallback mapper ret params variadic type := by
  induction type using CType.unqualified.induct with
  | case1 _ inner ih => exact .qualified (ih h)
  | case2 type hplain =>
    cases type with
    | qualified qualifier inner => exact absurd rfl (hplain qualifier inner)
    | _ => exact h

/-- A search that returns finds a function type, or comes to an end without one. -/
theorem Returns.exists_isCallback {type : CType} {answer : Answer}
    (h : mapper.Returns (.functionType type) answer) :
    ∃ found, answer = .function found ∧ ∀ function, found = some function →
      ∃ ret params variadic, function = .function ret params variadic ∧
        IsCallback mapper ret params variadic type := by
  generalize hcall : Call.functionType type = call at h
  induction h generalizing type with
  | found htype =>
    cases hcall
    refine ⟨_, rfl, ?_⟩
    rintro function ⟨⟩
    exact ⟨_, _, _, rfl, isCallback_of_unqualified (htype ▸ .function)⟩
  | followed htype hsubstitute htypedef _ ih =>
    cases hcall
    obtain ⟨found, rfl, hfound⟩ := ih rfl
    refine ⟨found, rfl, fun function hfunction => ?_⟩
    obtain ⟨ret, params, variadic, rfl, hcallback⟩ := hfound function hfunction
    refine ⟨ret, params, variadic, rfl, isCallback_of_unqualified ?_⟩
    rw [htype]
    exact .typedef hsubstitute htypedef hcallback
  | notFound =>
    cases hcall
    refine ⟨none, rfl, ?_⟩
    rintro function ⟨⟩
  | _ => cases hcall

theorem IsCallback.returns {ret : CType} {params : List CType} {variadic : Bool} {type : CType}
    (h : IsCallback mapper ret params variadic type) :
    mapper.Returns (.functionType type) (.function (some (.function ret params variadic))) := by
  induction h with
  | function => exact .found rfl
  | qualified _ ih => exact returns_functionType_qualified_iff.mpr ih
  | typedef hsubstitute htypedef _ ih => exact .followed rfl hsubstitute htypedef ih

section Acyclic

variable (hacyclic : mapper.registry.Acyclic)
include hacyclic

theorem returns_functionType_of_not_isCallback (type : CType)
    (h : ∀ ret params variadic, ¬ IsCallback mapper ret params variadic type) :
    mapper.Returns (.functionType type) (.function none) := by
  induction type using (Registry.wellFounded_under hacyclic).induction with
  | _ type ih =>
    cases type with
    | qualified qualifier inner =>
      have hinner : ∀ ret params variadic, ¬ IsCallback mapper ret params variadic inner :=
        fun ret params variadic hcallback => h ret params variadic (.qualified hcallback)
      exact returns_functionType_qualified_iff.mpr (ih inner .qualified hinner)
    | typedef name =>
      cases hsubstitute : mapper.substitute? name with
      | some managed =>
        refine .notFound rfl fun synonym hsynonym hnone => ?_
        cases hsynonym
        rw [hsubstitute] at hnone
        cases hnone
      | none =>
        cases htypedef : mapper.registry.typedef? name with
        | none =>
          refine .notFound rfl fun synonym hsynonym _ => ?_
          cases hsynonym
          exact htypedef
        | some underlying =>
          have hunderlying : ∀ ret params variadic,
              ¬ IsCallback mapper ret params variadic underlying :=
            fun ret params variadic hcallback =>
              h ret params variadic (.typedef hsubstitute htypedef hcallback)
          exact .followed rfl hsubstitute htypedef (ih underlying (.typedef htypedef) hunderlying)
    | function ret params variadic => exact absurd .function (h ret params variadic)
    | primitive | enum | record | pointer | array =>
      exact .notFound rfl fun synonym hsynonym => by cases hsynonym

end Acyclic

/-! Parts of function pointers. -/

theorem returns_part {type : CType}
    (h : mapper.Returns (.map false type) (.name (mapper.map type))) :
    mapper.Returns (.part type) (.name (mapper.partText? type)) := by
  unfold partText? part?
  cases hboolLike : mapper.boolLikePart? type with
  | some integer => exact .truthValue hboolLike
  | none => exact .mapped hboolLike h

theorem returns_parts {types : List CType}
    (h : ∀ type ∈ types, mapper.Returns (.part type) (.name (mapper.partText? type))) :
    mapper.Returns (.parts types) (.names (types.mapM mapper.partText?)) := by
  induction types with
  | nil => exact .nil
  | cons type rest ih =>
    obtain ⟨htype, hrest⟩ := List.forall_mem_cons.mp h
    rw [List.mapM_cons]
    cases hpart : mapper.partText? type with
    | none =>
      rw [hpart] at htype
      exact .stop htype
    | some first =>
      rw [hpart] at htype
      have hcons := Returns.cons htype (ih hrest)
      cases hparts : rest.mapM mapper.partText? with
      | none => rwa [hparts] at hcons
      | some parts => rwa [hparts] at hcons

theorem returns_functionPointer {ret : CType} {params : List CType} (variadic : Bool)
    (h : ∀ type ∈ params ++ [ret], mapper.Returns (.part type) (.name (mapper.partText? type))) :
    mapper.Returns (.functionPointer (.function ret params variadic))
      (.name (some (mapper.signatureText ret params variadic))) := by
  cases variadic with
  | true => exact .noSignature fun _ _ htype => by cases htype
  | false => exact .signature (returns_parts h)

/-! Every call. -/

section Acyclic

variable (hacyclic : mapper.registry.Acyclic)
include hacyclic

theorem returns_pointer {pointee : CType}
    (hmap : mapper.Returns (.map true pointee) (.name (mapper.top.map true pointee)))
    (hparts : ∀ ret params variadic, IsCallback mapper ret params variadic pointee →
      ∀ type ∈ params ++ [ret], mapper.Returns (.part type) (.name (mapper.partText? type))) :
    mapper.Returns (.pointer pointee) (.name (mapper.map (.pointer pointee))) := by
  by_cases hplain : ∀ ret params variadic, ¬ IsCallback mapper ret params variadic pointee
  · have hnone := returns_functionType_of_not_isCallback hacyclic pointee hplain
    have htext : mapper.map (.pointer pointee) =
        if isConstVoid pointee then some "void*" else mapper.top.map true pointee := by
      rw [map, ← mapAt_top hacyclic, mapAt_pointer_of_plain hacyclic hplain]
      exact Option.map_id'
    rw [htext]
    cases hvoid : isConstVoid pointee with
    | true => exact .address hnone hvoid
    | false => exact .pointee hnone hvoid hmap
  · simp only [not_forall, not_not] at hplain
    obtain ⟨ret, params, variadic, hcallback⟩ := hplain
    have htext : mapper.map (.pointer pointee) =
        some (mapper.signatureText ret params variadic) := by
      rw [map, ← mapAt_top hacyclic, mapAt, delegateAt_top hacyclic,
        delegate_of_isCallback hacyclic hcallback]
      rfl
    rw [htext]
    exact .callback hcallback.returns
      (returns_functionPointer variadic (hparts ret params variadic hcallback))

theorem top_map_pointer (pointer : Bool) (pointee : CType) :
    mapper.top.map pointer (.pointer pointee) =
      (mapper.map (.pointer pointee)).map (starred pointer) := by
  rw [map, ← mapAt_top hacyclic, ← mapAt_top hacyclic, mapAt, mapAt, Option.map_map]
  rfl

theorem returns_typedef {name : String} (pointer : Bool)
    (h : ∀ underlying, mapper.registry.typedef? name = some underlying →
      mapper.Returns (.map pointer underlying) (.name (mapper.top.map pointer underlying))) :
    mapper.Returns (.map pointer (.typedef name))
      (.name (mapper.top.map pointer (.typedef name))) := by
  rw [← mapAt_top hacyclic, mapAt, typedefAt]
  cases hsubstitute : mapper.substitute? name with
  | some managed => exact .substituted hsubstitute
  | none =>
    cases hkept : mapper.isKept name with
    | true => exact .kept hsubstitute hkept
    | false =>
      cases htypedef : mapper.registry.typedef? name with
      | none => exact .unknown hsubstitute hkept htypedef
      | some underlying => exact .synonym hsubstitute hkept htypedef (h underlying htypedef)

/-- The induction is on what is under the type, as a pointer to a function type calls the mapping
for the parts of that, which may be far from the type at hand. -/
theorem returns_map (type : CType) (pointer : Bool) :
    mapper.Returns (.map pointer type) (.name (mapper.top.map pointer type)) := by
  induction type using (Registry.wellFounded_under hacyclic).transGen.induction
    generalizing pointer with
  | _ type ih =>
    cases type with
    | primitive kind => exact .primitive
    | qualified qualifier inner =>
      rw [top_map_behind hacyclic rfl]
      exact .qualified (ih inner (.single .qualified) pointer)
    | enum tag => exact .enum
    | typedef name =>
      exact returns_typedef hacyclic pointer fun underlying htypedef =>
        ih underlying (.single (.typedef htypedef)) pointer
    | record kind tag => exact .record
    | pointer pointee =>
      rw [top_map_pointer hacyclic]
      refine .pointer (returns_pointer hacyclic (ih pointee (.single .pointee) true) ?_)
      intro ret params variadic hcallback part hpart
      exact returns_part (ih part (hcallback.part_under hpart) false)
    | array element size =>
      rw [top_map_array hacyclic]
      exact .array (ih element (.single .element) true)
    | function ret params variadic => exact .function

theorem exists_returns_functionType (type : CType) :
    ∃ found, mapper.Returns (.functionType type) (.function found) ∧
      ∀ ret params variadic, found = some (.function ret params variadic) ↔
        IsCallback mapper ret params variadic type := by
  by_cases hplain : ∀ ret params variadic, ¬ IsCallback mapper ret params variadic type
  · refine ⟨none, returns_functionType_of_not_isCallback hacyclic type hplain, ?_⟩
    exact fun ret params variadic =>
      iff_of_false (Option.some_ne_none _).symm (hplain ret params variadic)
  · simp only [not_forall, not_not] at hplain
    obtain ⟨ret, params, variadic, hcallback⟩ := hplain
    refine ⟨some (.function ret params variadic), hcallback.returns, fun _ _ _ => ⟨?_, ?_⟩⟩
    · rintro ⟨⟩
      exact hcallback
    · intro hother
      exact (Answer.function.inj (hcallback.returns.unique hother.returns)).symm

omit hacyclic in
theorem returns_functionPointer_of_not_isFunction {type : CType} (h : type.isFunction = false) :
    mapper.Returns (.functionPointer type) (.name (some (mapper.functionPointer type))) := by
  rw [functionPointer, h]
  refine .noSignature fun ret params htype => ?_
  rw [htype] at h
  cases h

/-- Whatever the typedefs mention, as long as none leads back to itself, each call of the mapping
returns on each type: asked for the managed name of the type or of a pointer to it, for the function
type behind it, for the function pointer of it, or for its name in the signature of one. The answer
is the one of the mapping that starts at a fixed level of typedefs. -/
theorem returns_iff_of_acyclic (type : CType) :
    (∀ pointer answer, mapper.Returns (.map pointer type) answer ↔
        answer = .name (mapper.top.map pointer type)) ∧
      (∀ answer, mapper.Returns (.pointer type) answer ↔
        answer = .name (mapper.map (.pointer type))) ∧
      (∃ found, (∀ answer, mapper.Returns (.functionType type) answer ↔
          answer = .function found) ∧
        ∀ ret params variadic, found = some (.function ret params variadic) ↔
          IsCallback mapper ret params variadic type) ∧
      (∀ answer, mapper.Returns (.functionPointer type) answer ↔
        answer = .name (some (mapper.functionPointer type))) ∧
      ∀ answer, mapper.Returns (.part type) answer ↔ answer = .name (mapper.partText? type) := by
  have hpart (other : CType) : mapper.Returns (.part other) (.name (mapper.partText? other)) :=
    returns_part (returns_map hacyclic other false)
  refine ⟨fun pointer => (returns_map hacyclic type pointer).iff_eq, ?_, ?_, ?_,
    (hpart type).iff_eq⟩
  · exact (returns_pointer hacyclic (returns_map hacyclic type true)
      fun _ _ _ _ other _ => hpart other).iff_eq
  · obtain ⟨found, hfound, hcallback⟩ := exists_returns_functionType hacyclic type
    exact ⟨found, hfound.iff_eq, hcallback⟩
  · cases type with
    | function ret params variadic =>
      rw [functionPointer_function]
      exact (returns_functionPointer variadic fun other _ => hpart other).iff_eq
    | primitive | qualified | enum | typedef | record | pointer | array =>
      exact (returns_functionPointer_of_not_isFunction rfl).iff_eq

end Acyclic

def index : CType := CType.typedef "Index"

def visit : CType := CType.typedef "Visit"

def walk : CType := CType.typedef "Walk"

def walkSignature : CType :=
  .function index [.pointer visit, .pointer (.qualified .constant index)] false

/-- `typedef int Index;`, `typedef void Visit(Index, void *);` and
`typedef Index Walk(Visit *, const Index *);`. -/
def walkMapper : TypeMapper where
  settings := Config.standard.types
  registry :=
    { typedefs := [("Index", .primitive .int),
        ("Visit", .function (.primitive .void) [index, .pointer (.primitive .void)] false),
        ("Walk", walkSignature)] }

theorem returns_iff_of_acyclic_walk :
    walkMapper.registry.Acyclic ∧
      walkMapper.Returns (.map true (.pointer walk)) (.name (some
        "delegate* unmanaged<delegate* unmanaged<int, nint, void>, int*, int>*")) ∧
      walkMapper.Returns (.pointer visit) (.name (some "delegate* unmanaged<int, nint, void>")) ∧
      walkMapper.Returns (.functionType walk) (.function (some walkSignature)) ∧
      walkMapper.Returns (.functionPointer walkSignature) (.name (some
        "delegate* unmanaged<delegate* unmanaged<int, nint, void>, int*, int>")) ∧
      walkMapper.Returns (.part walk) (.name none) := by
  have hacyclic : walkMapper.registry.Acyclic :=
    Registry.acyclic_of_pairwise (by decide) (by decide)
  obtain ⟨hmap, -, -, -, -⟩ := returns_iff_of_acyclic hacyclic (.pointer walk)
  obtain ⟨-, hpointer, -, -, -⟩ := returns_iff_of_acyclic hacyclic visit
  obtain ⟨-, -, ⟨found, hfound, hcallback⟩, -, hpart⟩ := returns_iff_of_acyclic hacyclic walk
  obtain ⟨-, -, -, hsignature, -⟩ := returns_iff_of_acyclic hacyclic walkSignature
  have hwalk : found = some walkSignature :=
    (hcallback _ _ _).mpr (.typedef (by decide +kernel) rfl .function)
  refine ⟨hacyclic, (hmap true _).mpr (congrArg Answer.name ?_),
    (hpointer _).mpr (congrArg Answer.name ?_), (hfound _).mpr (hwalk ▸ rfl),
    (hsignature _).mpr (congrArg Answer.name ?_), (hpart _).mpr (congrArg Answer.name ?_)⟩ <;>
  decide +kernel

end HeaderInterop.TypeMapper
