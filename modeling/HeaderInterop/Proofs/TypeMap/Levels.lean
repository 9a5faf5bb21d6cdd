import HeaderInterop.TypeMap
import HeaderInterop.Proofs.TypeMap.Acyclic

/-!
The levels of the mapping. A level gives the same answer as the next one for a type whose chains of
typedefs it covers. Without cycles the level that the mapping starts at covers every type, and is
then its own next level: the mapping is one recursion through types and typedefs alike.
-/

namespace HeaderInterop.TypeMapper

/-- The resolvers agree on what the known typedefs among the names stand for. -/
def Agree (mapper : TypeMapper) (first second : Resolver) (names : List String) : Prop :=
  ∀ name ∈ names, ∀ underlying, mapper.registry.typedef? name = some underlying →
    (∀ pointer, first.map pointer underlying = second.map pointer underlying) ∧
      first.delegate underlying = second.delegate underlying

variable {mapper : TypeMapper} {first second : Resolver}

theorem Agree.left {names others : List String}
    (h : mapper.Agree first second (names ++ others)) : mapper.Agree first second names :=
  fun name hname => h name (List.mem_append_left _ hname)

theorem Agree.right {names others : List String}
    (h : mapper.Agree first second (names ++ others)) : mapper.Agree first second others :=
  fun name hname => h name (List.mem_append_right _ hname)

theorem typedefAt_congr {name : String} (h : mapper.Agree first second [name]) (pointer : Bool) :
    mapper.typedefAt first pointer name = mapper.typedefAt second pointer name := by
  unfold typedefAt
  cases htypedef : mapper.registry.typedef? name with
  | none => rfl
  | some underlying =>
    have hmap := (h name (by simp) underlying htypedef).1 pointer
    simp only [Option.bind_some, hmap]

mutual

theorem mapAt_congr (type : CType) (h : mapper.Agree first second type.mentions) (pointer : Bool) :
    mapAt mapper first pointer type = mapAt mapper second pointer type := by
  match type with
  | .primitive _ | .enum _ | .record .. | .function .. => simp only [mapAt]
  | .qualified _ inner =>
    rw [mapAt, mapAt]
    exact mapAt_congr inner h pointer
  | .typedef name =>
    rw [mapAt, mapAt]
    exact typedefAt_congr h pointer
  | .pointer pointee =>
    rw [mapAt, mapAt, mapAt_congr pointee h true, delegateAt_congr pointee h]
  | .array element _ =>
    rw [mapAt, mapAt]
    exact mapAt_congr element h true

theorem delegateAt_congr (type : CType) (h : mapper.Agree first second type.mentions) :
    delegateAt mapper first type = delegateAt mapper second type := by
  match type with
  | .primitive _ | .enum _ | .record .. | .pointer _ | .array .. => simp only [delegateAt]
  | .qualified _ inner =>
    rw [delegateAt, delegateAt]
    exact delegateAt_congr inner h
  | .typedef name =>
    rw [delegateAt, delegateAt]
    cases htypedef : mapper.registry.typedef? name with
    | none => rfl
    | some underlying =>
      have hdelegate := (h name (List.mem_singleton.mpr rfl) underlying htypedef).2
      simp only [Option.bind_some, hdelegate]
  | .function ret params variadic =>
    rw [delegateAt, delegateAt, partsAt_congr params h.right, mapAt_congr ret h.left false]

theorem partsAt_congr (types : List CType)
    (h : mapper.Agree first second (CType.allMentions types)) :
    partsAt mapper first types = partsAt mapper second types := by
  match types with
  | [] => rfl
  | type :: rest =>
    rw [partsAt, partsAt, mapAt_congr type h.left false, partsAt_congr rest h.right]

end

/-- A level covers the types whose chains of typedefs have as many links. -/
theorem resolver_stable {n m : Nat} {type : CType} (hsettles : mapper.registry.Settles n type)
    (hle : n ≤ m) :
    (∀ pointer, (mapper.resolver (m + 1)).map pointer type =
        (mapper.resolver (n + 1)).map pointer type) ∧
      (mapper.resolver (m + 1)).delegate type = (mapper.resolver (n + 1)).delegate type := by
  have hagree : mapper.Agree (mapper.resolver m) (mapper.resolver n) type.mentions := by
    intro name hname underlying htypedef
    induction n generalizing m type name underlying with
    | zero =>
      rw [hsettles name hname] at htypedef
      cases htypedef
    | succ n ih =>
      obtain ⟨m, rfl⟩ : ∃ k, m = k + 1 := ⟨m - 1, by omega⟩
      have hinner := hsettles name hname underlying htypedef
      have hbelow : mapper.Agree (mapper.resolver m) (mapper.resolver n) underlying.mentions :=
        fun used hused u hu => ih hinner (by omega) used hused u hu
      exact ⟨fun pointer => mapAt_congr underlying hbelow pointer,
        delegateAt_congr underlying hbelow⟩
  exact ⟨fun pointer => mapAt_congr type hagree pointer, delegateAt_congr type hagree⟩

/-- The level that the mapping looks typedefs up at. -/
def beneath (mapper : TypeMapper) : Resolver :=
  mapper.resolver (2 * mapper.registry.typedefs.length)

theorem map_eq (type : CType) : mapper.map type = mapAt mapper mapper.beneath false type :=
  rfl

theorem top_delegate (type : CType) :
    mapper.top.delegate type = delegateAt mapper mapper.beneath type :=
  rfl

/-! Types inside qualifiers -/

theorem mapAt_unqualified (below : Resolver) (pointer : Bool) (type : CType) :
    mapAt mapper below pointer type.unqualified = mapAt mapper below pointer type := by
  induction type using CType.unqualified.induct with
  | case1 _ inner ih =>
    rw [CType.unqualified, mapAt]
    exact ih
  | case2 type h => cases type <;> first | rfl | exact absurd rfl (h _ _)

theorem map_unqualified (type : CType) : mapper.map type.unqualified = mapper.map type :=
  mapAt_unqualified mapper.beneath false type

section Acyclic

variable (hacyclic : mapper.registry.Acyclic)
include hacyclic

theorem top_eq_level (type : CType) {m : Nat} (hle : mapper.registry.typedefs.length ≤ m) :
    (∀ pointer, mapper.top.map pointer type = (mapper.resolver (m + 1)).map pointer type) ∧
      mapper.top.delegate type = (mapper.resolver (m + 1)).delegate type := by
  have hsettles := Registry.settles_length hacyclic type
  have htop := resolver_stable hsettles
    (show mapper.registry.typedefs.length ≤ 2 * mapper.registry.typedefs.length by omega)
  have hlevel := resolver_stable hsettles hle
  exact ⟨fun pointer => (htop.1 pointer).trans (hlevel.1 pointer).symm, htop.2.trans hlevel.2.symm⟩

/-- The mapping looks typedefs up in itself. -/
theorem mapAt_top (pointer : Bool) (type : CType) :
    mapAt mapper mapper.top pointer type = mapper.top.map pointer type := by
  have hle : mapper.registry.typedefs.length ≤ 2 * mapper.registry.typedefs.length + 1 := by omega
  exact ((top_eq_level hacyclic type hle).1 pointer).symm

theorem delegateAt_top (type : CType) :
    delegateAt mapper mapper.top type = mapper.top.delegate type := by
  have hle : mapper.registry.typedefs.length ≤ 2 * mapper.registry.typedefs.length + 1 := by omega
  exact (top_eq_level hacyclic type hle).2.symm

/-- A typedef that is neither substituted nor kept is mapped like what it stands for. -/
theorem top_map_typedef {name : String} {underlying : CType}
    (htypedef : mapper.registry.typedef? name = some underlying)
    (hsubstitute : mapper.substitute? name = none) (hkept : mapper.isKept name = false)
    (pointer : Bool) :
    mapper.top.map pointer (.typedef name) = mapper.top.map pointer underlying := by
  rw [← mapAt_top hacyclic, mapAt]
  simp [typedefAt, hsubstitute, hkept, htypedef]

end Acyclic

end HeaderInterop.TypeMapper
