import HeaderInterop.Proofs.TypeMap.Calls
import Mathlib.Data.Set.Card
import Mathlib.Order.Monotone.Basic

/-!
Answers and levels, for any typedefs. A call that returns needs finitely many lookups of typedefs.
They can be taken in rounds: what a round settles is right one level above any resolver that is
right about the rounds before it. A round that settles nothing new is the last, so there are at most
as many rounds as lookups, and the level that the mapping starts at is above them. So a call that
returns has the answer of the mapping, and where the mapping has another, the call goes on for ever.
-/

namespace HeaderInterop.TypeMapper

variable {mapper : TypeMapper}

/-- Something is the managed name of a pointer to what the type is as a function type, or `none` if
it is no function type. -/
inductive Delegates (mapper : TypeMapper) (type : CType) : Option String → Prop where
  | none (h : mapper.Returns (.functionType type) (.function none)) : Delegates mapper type none
  | some {function managed} (hfunction : mapper.Returns (.functionType type) (.function (some function)))
      (h : mapper.Returns (.functionPointer function) (.name managed)) :
      Delegates mapper type managed

theorem Delegates.unique {type : CType} {managed other : Option String}
    (h : mapper.Delegates type managed) (hother : mapper.Delegates type other) :
    other = managed := by
  cases h with
  | none hnone =>
    cases hother with
    | none => rfl
    | some hfunction => cases hnone.unique hfunction
  | some hfunction hmanaged =>
    cases hother with
    | none hnone => cases hfunction.unique hnone
    | some hsame h =>
      cases hfunction.unique hsame
      exact Answer.name.inj (hmanaged.unique h)

/-- What is looked up of a typedef: its managed name, or with the flag the function pointer that a
pointer to it is. -/
abbrev Lookup := Bool × String

/-- The resolver has the answers for what a typedef stands for, as far as there are any. -/
def IsRight (mapper : TypeMapper) (below : Resolver) (lookup : Lookup) : Prop :=
  ∀ underlying, mapper.registry.typedef? lookup.2 = some underlying →
    if lookup.1 then ∀ managed, mapper.Delegates underlying managed →
      below.delegate underlying = managed
    else ∀ pointer managed, mapper.Returns (.map pointer underlying) (.name managed) →
      below.map pointer underlying = managed

/-- The level above a resolver. -/
def above (mapper : TypeMapper) (below : Resolver) : Resolver :=
  { map := mapAt mapper below, delegate := delegateAt mapper below }

/-- What the first rounds settle: each takes in what is right above any resolver that is right about
the rounds before it. -/
def settled (mapper : TypeMapper) : Nat → Set Lookup
  | 0 => ∅
  | n + 1 => { lookup | lookup.2 ∈ mapper.registry.known ∧ ∀ below : Resolver,
      (∀ earlier ∈ settled mapper n, mapper.IsRight below earlier) →
        mapper.IsRight (mapper.above below) lookup }

/-- All lookups of typedefs in the table. -/
def lookups (mapper : TypeMapper) : Set Lookup :=
  Set.univ ×ˢ mapper.registry.known

theorem settled_subset_lookups (n : Nat) : mapper.settled n ⊆ mapper.lookups := by
  cases n with
  | zero => exact Set.empty_subset _
  | succ n => exact fun lookup hlookup => ⟨Set.mem_univ _, hlookup.1⟩

theorem lookups_finite : mapper.lookups.Finite :=
  Set.finite_univ.prod mapper.registry.known_finite

theorem ncard_lookups_le : mapper.lookups.ncard ≤ 2 * mapper.registry.typedefs.length := by
  have hknown := mapper.registry.ncard_known_le
  rw [lookups, Set.ncard_prod, Set.ncard_univ, Nat.card_eq_fintype_card, Fintype.card_bool]
  omega

/-- A resolver that is right about a round is right about one that settles less. -/
theorem settled_subset_of_subset {n m : Nat} (h : mapper.settled n ⊆ mapper.settled m) :
    mapper.settled (n + 1) ⊆ mapper.settled (m + 1) :=
  fun _ hlookup => ⟨hlookup.1, fun below hright =>
    hlookup.2 below fun earlier hearlier => hright earlier (h hearlier)⟩

theorem settled_subset_succ (n : Nat) : mapper.settled n ⊆ mapper.settled (n + 1) := by
  induction n with
  | zero => exact Set.empty_subset _
  | succ n ih => exact settled_subset_of_subset ih

theorem settled_mono {n m : Nat} (hle : n ≤ m) : mapper.settled n ⊆ mapper.settled m := by
  induction hle with
  | refl => exact Set.Subset.rfl
  | step _ ih => exact ih.trans (settled_subset_succ _)

/-- There are no more rounds than lookups. -/
theorem settled_subset_last (n : Nat) :
    mapper.settled n ⊆ mapper.settled (2 * mapper.registry.typedefs.length) := by
  let last := 2 * mapper.registry.typedefs.length
  have hfinite (m : Nat) : (mapper.settled m).Finite :=
    lookups_finite.subset (settled_subset_lookups m)
  have hmono : Monotone fun m => (mapper.settled m).ncard :=
    fun m k hle => Set.ncard_le_ncard (settled_mono hle) (hfinite k)
  have hbound (m : Nat) : (mapper.settled m).ncard ≤ last :=
    (Set.ncard_le_ncard (settled_subset_lookups m) lookups_finite).trans ncard_lookups_le
  have hstable (m : Nat) (heq : (mapper.settled m).ncard = (mapper.settled (m + 1)).ncard) :
      (mapper.settled (m + 1)).ncard = (mapper.settled (m + 2)).ncard := by
    have hsame : mapper.settled m = mapper.settled (m + 1) :=
      Set.eq_of_subset_of_ncard_le (settled_mono m.le_succ) heq.ge (hfinite _)
    have hnext : mapper.settled (m + 1) = mapper.settled (m + 2) :=
      (settled_subset_of_subset hsame.le).antisymm (settled_subset_of_subset hsame.ge)
    rw [hnext]
  rcases Nat.le_total n last with hle | hle
  · exact settled_mono hle
  · have hcard := Nat.stabilises_of_monotone hmono hbound hstable hle
    exact (Set.eq_of_subset_of_ncard_le (settled_mono hle) hcard.le (hfinite n)).ge

theorem isRight_resolver (n : Nat) :
    ∀ lookup ∈ mapper.settled n, mapper.IsRight (mapper.resolver n) lookup := by
  induction n with
  | zero => exact fun _ hlookup => hlookup.elim
  | succ n ih => exact fun _ hlookup => hlookup.2 (mapper.resolver n) ih

/-! What is true of every resolver that is right about enough lookups. -/

/-- The property is one of every resolver that is right about the lookups of some round. -/
def Assured (mapper : TypeMapper) (p : Resolver → Prop) : Prop :=
  ∃ n, ∀ below, (∀ lookup ∈ mapper.settled n, mapper.IsRight below lookup) → p below

section Assured

variable {p q : Resolver → Prop}

theorem Assured.of_forall (h : ∀ below, p below) : mapper.Assured p :=
  ⟨0, fun below _ => h below⟩

theorem Assured.imp (hp : mapper.Assured p) (h : ∀ below, p below → q below) :
    mapper.Assured q := by
  obtain ⟨n, hp⟩ := hp
  exact ⟨n, fun below hright => h below (hp below hright)⟩

theorem Assured.and (hp : mapper.Assured p) (hq : mapper.Assured q) :
    mapper.Assured fun below => p below ∧ q below := by
  obtain ⟨n, hp⟩ := hp
  obtain ⟨m, hq⟩ := hq
  refine ⟨max n m, fun below hright => ⟨hp below ?_, hq below ?_⟩⟩
  · exact fun lookup hlookup => hright lookup (settled_mono (le_max_left n m) hlookup)
  · exact fun lookup hlookup => hright lookup (settled_mono (le_max_right n m) hlookup)

theorem Assured.beneath (h : mapper.Assured p) : p mapper.beneath := by
  obtain ⟨n, h⟩ := h
  exact h mapper.beneath fun lookup hlookup =>
    isRight_resolver _ lookup (settled_subset_last n hlookup)

/-- What is assured to be right one level up is right after one more round. -/
theorem Assured.isRight {lookup : Lookup} (hknown : lookup.2 ∈ mapper.registry.known)
    (h : mapper.Assured fun below => mapper.IsRight (mapper.above below) lookup) :
    mapper.Assured fun below => mapper.IsRight below lookup := by
  obtain ⟨n, h⟩ := h
  exact ⟨n + 1, fun below hright => hright lookup ⟨hknown, h⟩⟩

end Assured

/-! The steps of the induction along a call. -/

theorem delegateAt_unqualified (below : Resolver) (type : CType) :
    delegateAt mapper below type.unqualified = delegateAt mapper below type := by
  induction type using CType.unqualified.induct with
  | case1 _ inner ih =>
    rw [CType.unqualified, delegateAt]
    exact ih
  | case2 type h => cases type <;> first | rfl | exact absurd rfl (h _ _)

theorem delegateAt_function (below : Resolver) (ret : CType) (params : List CType) :
    delegateAt mapper below (.function ret params false) =
      some (((partsAt mapper below (params ++ [ret])).map delegateText).getD "nint") := by
  have happend : partsAt mapper below (params ++ [ret]) =
      (partsAt mapper below params).bind fun parts =>
        (mapper.part? ret (mapAt mapper below false ret)).map fun last => parts ++ [last] := by
    induction params with
    | nil =>
      rw [List.nil_append, partsAt, partsAt, partsAt]
      cases mapper.part? ret (mapAt mapper below false ret) <;> rfl
    | cons param params ih =>
      rw [List.cons_append, partsAt, partsAt, ih]
      cases mapper.part? param (mapAt mapper below false param) with
      | none => rfl
      | some first =>
        cases partsAt mapper below params with
        | none => rfl
        | some parts => cases mapper.part? ret (mapAt mapper below false ret) <;> rfl
  rw [delegateAt, happend]
  cases partsAt mapper below params with
  | none => rfl
  | some parts => cases mapper.part? ret (mapAt mapper below false ret) <;> rfl

theorem delegateAt_of_notFound {below : Resolver} {type : CType}
    (hfunction : type.unqualified.isFunction = false)
    (hsynonym : ∀ name, type.unqualified = .typedef name → mapper.substitute? name = none →
      mapper.registry.typedef? name = none) :
    delegateAt mapper below type = none := by
  induction type using CType.unqualified.induct with
  | case1 _ inner ih =>
    rw [delegateAt]
    exact ih hfunction hsynonym
  | case2 type h =>
    cases type with
    | typedef name =>
      rw [delegateAt]
      cases hsubstitute : mapper.substitute? name with
      | some managed => rfl
      | none =>
        rw [hsynonym name rfl hsubstitute]
        rfl
    | function => cases hfunction
    | qualified qualifier inner => exact absurd rfl (h qualifier inner)
    | primitive | enum | record | pointer | array => rfl

theorem mapAt_pointer (below : Resolver) (pointer : Bool) (pointee : CType) :
    mapAt mapper below pointer (.pointer pointee) =
      (mapAt mapper below false (.pointer pointee)).map (starred pointer) := by
  rw [mapAt, mapAt, Option.map_map]
  rfl

section Steps

variable {name : String} {underlying type pointee : CType} {managed : Option String}

/-- The managed names of what a typedef stands for are assured to be looked up. -/
theorem assured_map (htypedef : mapper.registry.typedef? name = some underlying)
    (h : ∀ pointer, ∃ managed, mapper.Returns (.map pointer underlying) (.name managed) ∧
      mapper.Assured fun below => mapAt mapper below pointer underlying = managed)
    (pointer : Bool) (hreturns : mapper.Returns (.map pointer underlying) (.name managed)) :
    mapper.Assured fun below => below.map pointer underlying = managed := by
  obtain ⟨value, hvalue, hassured⟩ := h false
  obtain ⟨starry, hstarry, hassuredStarry⟩ := h true
  have hlookup : mapper.Assured fun below => mapper.IsRight below (false, name) := by
    refine .isRight (Registry.mem_known htypedef) ((hassured.and hassuredStarry).imp ?_)
    rintro below ⟨hfalse, htrue⟩ other hother
    obtain rfl : underlying = other := Option.some.inj (htypedef.symm.trans hother)
    rw [if_neg Bool.false_ne_true]
    intro flag found hfound
    cases flag with
    | false => exact hfalse.trans (Answer.name.inj (hfound.unique hvalue))
    | true => exact htrue.trans (Answer.name.inj (hfound.unique hstarry))
  refine hlookup.imp fun below hright => ?_
  have hmap := hright underlying htypedef
  rw [if_neg Bool.false_ne_true] at hmap
  exact hmap pointer managed hreturns

/-- So is the function pointer of what it stands for. -/
theorem assured_delegate (htypedef : mapper.registry.typedef? name = some underlying)
    (hdelegates : mapper.Delegates underlying managed)
    (h : mapper.Assured fun below => delegateAt mapper below underlying = managed) :
    mapper.Assured fun below => below.delegate underlying = managed := by
  have hlookup : mapper.Assured fun below => mapper.IsRight below (true, name) := by
    refine .isRight (Registry.mem_known htypedef) (h.imp fun below hdelegate other hother => ?_)
    obtain rfl : underlying = other := Option.some.inj (htypedef.symm.trans hother)
    rw [if_pos rfl]
    exact fun found hfound => hdelegate.trans (hfound.unique hdelegates)
  refine hlookup.imp fun below hright => ?_
  have hdelegate := hright underlying htypedef
  rw [if_pos rfl] at hdelegate
  exact hdelegate managed hdelegates

theorem assured_functionType (htype : type.unqualified = .typedef name)
    (hsubstitute : mapper.substitute? name = none)
    (htypedef : mapper.registry.typedef? name = some underlying)
    (hdelegates : mapper.Delegates underlying managed)
    (h : mapper.Assured fun below => delegateAt mapper below underlying = managed) :
    mapper.Assured fun below => delegateAt mapper below type = managed := by
  refine (assured_delegate htypedef hdelegates h).imp fun below hdelegate => ?_
  rw [← delegateAt_unqualified, htype, delegateAt, hsubstitute, htypedef]
  exact hdelegate

/-- What an answer to a call says of the levels: they have it, from some round on. An answer for a
type by value is one with a pointer too, as both are looked up together. -/
def Assures (mapper : TypeMapper) : Call → Answer → Prop
  | .map _ type, _ => ∀ pointer, ∃ managed, mapper.Returns (.map pointer type) (.name managed) ∧
      mapper.Assured fun below => mapAt mapper below pointer type = managed
  | .pointer pointee, answer => ∃ managed, answer = .name managed ∧
      mapper.Assured fun below => mapAt mapper below false (.pointer pointee) = managed
  | .functionType type, answer =>
      (answer = .function none → mapper.Assured fun below => delegateAt mapper below type = none) ∧
        ∀ function, answer = .function (some function) → function.isFunction = true ∧
          ∀ managed, mapper.Returns (.functionPointer function) (.name managed) →
            (mapper.Assured fun below => delegateAt mapper below function = managed) →
              mapper.Assured fun below => delegateAt mapper below type = managed
  | .functionPointer type, answer => type.isFunction = true → ∃ text, answer = .name (some text) ∧
      mapper.Assured fun below => delegateAt mapper below type = some text
  | .part type, answer => ∃ managed, answer = .name managed ∧
      mapper.Assured fun below => mapper.part? type (mapAt mapper below false type) = managed
  | .parts types, answer => ∃ names, answer = .names names ∧
      mapper.Assured fun below => partsAt mapper below types = names

/-- An answer that all levels have at once. -/
theorem assures_map (call : Bool) (answer : Answer) (h : ∀ pointer, ∃ managed,
      mapper.Returns (.map pointer type) (.name managed) ∧
        ∀ below, mapAt mapper below pointer type = managed) :
    mapper.Assures (.map call type) answer := by
  intro pointer
  obtain ⟨managed, hreturns, hmap⟩ := h pointer
  exact ⟨managed, hreturns, .of_forall hmap⟩

theorem Returns.assures {call : Call} {answer : Answer} (h : mapper.Returns call answer) :
    mapper.Assures call answer := by
  induction h with
  | primitive => exact assures_map _ _ fun pointer => ⟨_, .primitive, fun below => by rw [mapAt]⟩
  | enum => exact assures_map _ _ fun pointer => ⟨_, .enum, fun below => by rw [mapAt]⟩
  | record => exact assures_map _ _ fun pointer => ⟨_, .record, fun below => by rw [mapAt]⟩
  | function => exact assures_map _ _ fun pointer => ⟨_, .function, fun below => by rw [mapAt]⟩
  | substituted hsubstitute =>
    exact assures_map _ _ fun pointer => ⟨_, .substituted hsubstitute, fun below => by
      rw [mapAt, typedefAt, hsubstitute]⟩
  | kept hsubstitute hkept =>
    exact assures_map _ _ fun pointer => ⟨_, .kept hsubstitute hkept, fun below => by
      rw [mapAt, typedefAt, hsubstitute, hkept]; rfl⟩
  | unknown hsubstitute hkept htypedef =>
    exact assures_map _ _ fun pointer => ⟨_, .unknown hsubstitute hkept htypedef, fun below => by
      rw [mapAt, typedefAt, hsubstitute, hkept, htypedef]; rfl⟩
  | qualified _ ih =>
    intro pointer
    obtain ⟨managed, hreturns, hassured⟩ := ih pointer
    refine ⟨managed, .qualified hreturns, hassured.imp fun below hmap => ?_⟩
    rwa [mapAt]
  | synonym hsubstitute hkept htypedef _ ih =>
    intro pointer
    obtain ⟨managed, hreturns, -⟩ := ih pointer
    refine ⟨managed, .synonym hsubstitute hkept htypedef hreturns,
      (assured_map htypedef ih pointer hreturns).imp fun below hmap => ?_⟩
    rw [mapAt, typedefAt, hsubstitute, hkept, htypedef]
    exact hmap
  | pointer h ih =>
    intro pointer
    obtain ⟨managed, hanswer, hassured⟩ := ih
    cases hanswer
    refine ⟨_, .pointer h, hassured.imp fun below hmap => ?_⟩
    rw [mapAt_pointer, hmap]
  | array _ ih =>
    intro pointer
    obtain ⟨managed, hreturns, hassured⟩ := ih true
    refine ⟨managed, .array hreturns, hassured.imp fun below hmap => ?_⟩
    rwa [mapAt]
  | callback hfunction h ihfunction ih =>
    obtain ⟨hisFunction, hpasses⟩ := ihfunction.2 _ rfl
    obtain ⟨text, rfl, hassured⟩ := ih hisFunction
    refine ⟨some text, rfl, (hpasses _ h hassured).imp fun below hdelegate => ?_⟩
    rw [mapAt, hdelegate]
    rfl
  | address _ hvoid ihfunction =>
    refine ⟨some "void*", rfl, (ihfunction.1 rfl).imp fun below hdelegate => ?_⟩
    rw [mapAt, hdelegate, hvoid]
    rfl
  | pointee _ hvoid h ihfunction ih =>
    obtain ⟨managed, hreturns, hassured⟩ := ih true
    refine ⟨managed, hreturns.unique h, ((ihfunction.1 rfl).and hassured).imp ?_⟩
    rintro below ⟨hdelegate, hmap⟩
    rw [mapAt, hdelegate, hvoid]
    exact (congrArg (Option.map (starred false)) hmap).trans Option.map_id'
  | found htype =>
    refine ⟨?_, ?_⟩
    · rintro ⟨⟩
    rintro function ⟨⟩
    refine ⟨rfl, fun managed _ hassured => hassured.imp fun below hdelegate => ?_⟩
    rw [← delegateAt_unqualified, htype, hdelegate]
  | followed htype hsubstitute htypedef h ih =>
    refine ⟨?_, ?_⟩
    · rintro rfl
      exact assured_functionType htype hsubstitute htypedef (.none h) (ih.1 rfl)
    · rintro function rfl
      obtain ⟨hisFunction, hpasses⟩ := ih.2 function rfl
      refine ⟨hisFunction, fun managed hreturns hassured => ?_⟩
      exact assured_functionType htype hsubstitute htypedef (.some h hreturns)
        (hpasses managed hreturns hassured)
  | notFound hfunction hsynonym =>
    refine ⟨fun _ => .of_forall fun below => delegateAt_of_notFound hfunction hsynonym, ?_⟩
    rintro function ⟨⟩
  | @noSignature type htype =>
    intro hisFunction
    refine ⟨"nint", rfl, .of_forall fun below => ?_⟩
    cases type with
    | function ret params variadic =>
      cases variadic with
      | true => rfl
      | false => exact absurd rfl (htype ret params)
    | _ => cases hisFunction
  | signature _ ih =>
    intro _
    obtain ⟨names, hanswer, hassured⟩ := ih
    cases hanswer
    refine ⟨_, rfl, hassured.imp fun below hparts => ?_⟩
    rw [delegateAt_function, hparts]
  | truthValue hboolLike =>
    refine ⟨_, rfl, .of_forall fun below => ?_⟩
    rw [part?, hboolLike]
  | mapped hboolLike h ih =>
    obtain ⟨managed, hreturns, hassured⟩ := ih false
    cases hreturns.unique h
    refine ⟨_, rfl, hassured.imp fun below hmap => ?_⟩
    rw [part?, hboolLike, hmap]
  | nil => exact ⟨_, rfl, .of_forall fun below => rfl⟩
  | stop _ ih =>
    obtain ⟨managed, hanswer, hassured⟩ := ih
    cases hanswer
    refine ⟨_, rfl, hassured.imp fun below hpart => ?_⟩
    rw [partsAt, hpart]
  | cons _ _ ih ihrest =>
    obtain ⟨managed, hanswer, hassured⟩ := ih
    cases hanswer
    obtain ⟨names, hnames, hassuredRest⟩ := ihrest
    cases hnames
    refine ⟨_, rfl, (hassured.and hassuredRest).imp ?_⟩
    rintro below ⟨hpart, hparts⟩
    rw [partsAt, hpart, hparts]

end Steps

/-! The answers. -/

section Answers

variable {type : CType} {pointer : Bool} {answer : Answer}

theorem Returns.eq_map (h : mapper.Returns (.map pointer type) answer) :
    answer = .name (mapper.top.map pointer type) := by
  obtain ⟨managed, hreturns, hassured⟩ := h.assures pointer
  have hmap : mapper.top.map pointer type = managed := hassured.beneath
  rw [hmap]
  exact hreturns.unique h

theorem Returns.eq_pointer (h : mapper.Returns (.pointer type) answer) :
    answer = .name (mapper.map (.pointer type)) := by
  obtain ⟨managed, rfl, hassured⟩ := h.assures
  exact congrArg Answer.name hassured.beneath.symm

theorem Returns.eq_functionPointer (h : mapper.Returns (.functionPointer type) answer) :
    answer = .name (some (mapper.functionPointer type)) := by
  cases hfunction : type.isFunction with
  | true =>
    obtain ⟨text, rfl, hassured⟩ := h.assures hfunction
    have hdelegate : mapper.top.delegate type = some text := hassured.beneath
    rw [functionPointer, hfunction, hdelegate]
    rfl
  | false => exact (returns_functionPointer_of_not_isFunction hfunction).unique h

theorem Returns.eq_part (h : mapper.Returns (.part type) answer) :
    answer = .name (mapper.partText? type) := by
  obtain ⟨managed, rfl, hassured⟩ := h.assures
  exact congrArg Answer.name hassured.beneath.symm

end Answers

end HeaderInterop.TypeMapper
