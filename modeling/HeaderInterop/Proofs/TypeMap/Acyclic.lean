import Mathlib.Data.Set.Card
import Mathlib.Logic.Relation
import HeaderInterop.Registry

/-!
Typedefs without cycles. When no typedef leads back to itself, each one leads to fewer typedefs than
any that mentions it, so a chain of mentions is at most as long as the table of typedefs.
-/

namespace HeaderInterop

namespace CType

mutual

/-- The names of typedefs in a type, in any position. -/
def mentions : CType → List String
  | .typedef name => [name]
  | .qualified _ inner => inner.mentions
  | .pointer pointee => pointee.mentions
  | .array element _ => element.mentions
  | .function ret params _ => ret.mentions ++ allMentions params
  | .primitive _ | .enum _ | .record .. => []

def allMentions : List CType → List String
  | [] => []
  | type :: rest => type.mentions ++ allMentions rest

end

end CType

namespace Registry

/-- The underlying type of the typedef `name` mentions `used`. -/
def Uses (registry : Registry) (name used : String) : Prop :=
  ∃ underlying, registry.typedef? name = some underlying ∧ used ∈ underlying.mentions

/-- No typedef leads back to itself. -/
def Acyclic (registry : Registry) : Prop :=
  ∀ name, ¬ Relation.TransGen registry.Uses name name

/-- Typedefs that are ranked above those that they use have no cycle. -/
theorem acyclic_of_rank {registry : Registry} (rank : String → Nat)
    (h : ∀ name used, registry.Uses name used → rank used < rank name) : registry.Acyclic := by
  intro name hcycle
  have hlt {first last : String} (hchain : Relation.TransGen registry.Uses first last) :
      rank last < rank first := by
    induction hchain with
    | single huses => exact h _ _ huses
    | tail _ huses ih => exact (h _ _ huses).trans ih
  exact Nat.lt_irrefl _ (hlt hcycle)

/-- Typedefs that mention neither themselves nor one behind them have no cycle. -/
theorem acyclic_of_pairwise {registry : Registry}
    (hself : ∀ entry ∈ registry.typedefs, entry.1 ∉ entry.2.mentions)
    (hbehind : registry.typedefs.Pairwise fun first second => second.1 ∉ first.2.mentions) :
    registry.Acyclic := by
  let names := registry.typedefs.map Prod.fst
  let rank (name : String) : Nat := if name ∈ names then names.idxOf name + 1 else 0
  refine acyclic_of_rank rank ?_
  rintro name used ⟨underlying, htypedef, hmention⟩
  obtain ⟨before, after, htypedefs, hbefore⟩ := List.lookup_eq_some_iff.mp htypedef
  have hnames : names = before.map Prod.fst ++ name :: after.map Prod.fst := by
    simp [names, htypedefs]
  have hname : name ∉ before.map Prod.fst := by
    intro hmem
    obtain ⟨entry, hentry, rfl⟩ := List.mem_map.mp hmem
    exact bne_iff_ne.mp (hbefore entry hentry) rfl
  have hrank : rank name = (before.map Prod.fst).length + 1 := by
    simp only [rank, hnames, List.idxOf_append_of_notMem hname, List.idxOf_cons_self]
    exact if_pos (List.mem_append_right _ List.mem_cons_self)
  have hself : used ≠ name := by
    rintro rfl
    exact hself (used, underlying) (by simp [htypedefs]) hmention
  have hafter : used ∉ after.map Prod.fst := by
    intro hmem
    obtain ⟨entry, hentry, rfl⟩ := List.mem_map.mp hmem
    rw [htypedefs, List.pairwise_append, List.pairwise_cons] at hbehind
    exact hbehind.2.1.1 entry hentry hmention
  rw [hrank]
  by_cases hused : used ∈ before.map Prod.fst
  · have hlt := List.idxOf_lt_length_of_mem hused
    have hle : rank used ≤ names.idxOf used + 1 := by
      simp only [rank]
      split <;> omega
    rw [hnames, List.idxOf_append_of_mem hused] at hle
    omega
  · have hzero : rank used = 0 := if_neg (by simp [hnames, hused, hself, hafter])
    omega

/-- Chains of typedefs that begin in the type have at most `n` links. -/
def Settles (registry : Registry) : Nat → CType → Prop
  | 0, type => ∀ name ∈ type.mentions, registry.typedef? name = none
  | n + 1, type => ∀ name ∈ type.mentions, ∀ underlying,
      registry.typedef? name = some underlying → registry.Settles n underlying

/-- The typedefs of the table. -/
def known (registry : Registry) : Set String :=
  { name | (registry.typedef? name).isSome }

/-- The typedefs of the table that a typedef leads to. -/
def below (registry : Registry) (name : String) : Set String :=
  { used ∈ registry.known | Relation.TransGen registry.Uses name used }

theorem mem_known {registry : Registry} {name : String} {underlying : CType}
    (h : registry.typedef? name = some underlying) : name ∈ registry.known := by
  rw [known, Set.mem_ofPred_eq, h]
  rfl

theorem known_subset (registry : Registry) :
    registry.known ⊆ (registry.typedefs.map Prod.fst).toFinset := by
  intro name hname
  rw [known, Set.mem_ofPred_eq, typedef?, List.lookup_isSome_iff] at hname
  obtain ⟨entry, hentry, hkey⟩ := hname
  simp only [List.coe_toFinset, List.mem_map, Set.mem_ofPred_eq]
  exact ⟨entry, hentry, (eq_of_beq hkey).symm⟩

theorem known_finite (registry : Registry) : registry.known.Finite :=
  (Finset.finite_toSet _).subset registry.known_subset

theorem ncard_known_le (registry : Registry) :
    registry.known.ncard ≤ registry.typedefs.length := by
  have hsubset := Set.ncard_le_ncard registry.known_subset (Finset.finite_toSet _)
  rw [Set.ncard_coe_finset] at hsubset
  have hkeys := List.toFinset_card_le (registry.typedefs.map Prod.fst)
  rw [List.length_map] at hkeys
  exact hsubset.trans hkeys

variable {registry : Registry} (hacyclic : registry.Acyclic)
include hacyclic

/-- A typedef leads to fewer typedefs than one that mentions it. -/
theorem ncard_below_lt {name used : String} (huses : registry.Uses name used)
    (hused : used ∈ registry.known) :
    (registry.below used).ncard < (registry.below name).ncard := by
  have hfinite : (registry.below name).Finite := registry.known_finite.subset fun _ h => h.1
  refine Set.ncard_lt_ncard ⟨?_, ?_⟩ hfinite
  · intro other hother
    exact ⟨hother.1, hother.2.head huses⟩
  · intro hsubset
    have hself := hsubset ⟨hused, .single huses⟩
    exact hacyclic used hself.2

theorem ncard_below_lt_length {name : String} (hname : name ∈ registry.known) :
    (registry.below name).ncard < registry.typedefs.length := by
  have hlt : (registry.below name).ncard < registry.known.ncard := by
    refine Set.ncard_lt_ncard ⟨fun _ h => h.1, ?_⟩ registry.known_finite
    intro hsubset
    exact hacyclic name (hsubset hname).2
  exact hlt.trans_le registry.ncard_known_le

theorem settles_underlying {n : Nat} {name : String} {underlying : CType}
    (htypedef : registry.typedef? name = some underlying)
    (hbelow : (registry.below name).ncard ≤ n) : registry.Settles n underlying := by
  induction n generalizing name underlying with
  | zero =>
    intro used hmention
    cases hused : registry.typedef? used with
    | none => rfl
    | some u =>
      have hlt := ncard_below_lt hacyclic ⟨underlying, htypedef, hmention⟩ (mem_known hused)
      omega
  | succ n ih =>
    intro used hmention u hused
    have hlt := ncard_below_lt hacyclic ⟨underlying, htypedef, hmention⟩ (mem_known hused)
    exact ih hused (by omega)

/-- No chain of typedefs is longer than their table. -/
theorem settles_length (type : CType) : registry.Settles registry.typedefs.length type := by
  have hlt {name : String} {underlying : CType}
      (htypedef : registry.typedef? name = some underlying) :
      (registry.below name).ncard < registry.typedefs.length :=
    ncard_below_lt_length hacyclic (mem_known htypedef)
  cases hlength : registry.typedefs.length with
  | zero =>
    intro name _
    cases htypedef : registry.typedef? name with
    | none => rfl
    | some underlying =>
      have hshort := hlt htypedef
      omega
  | succ n =>
    intro name _ underlying htypedef
    have hshort := hlt htypedef
    exact settles_underlying hacyclic htypedef (by omega)

/-! Types and what is under them -/

omit hacyclic

/-- The first type is a part of the second, or what the second stands for as a typedef. -/
inductive Under (registry : Registry) : CType → CType → Prop where
  | qualified {qualifier inner} : Under registry inner (.qualified qualifier inner)
  | pointee {pointee} : Under registry pointee (.pointer pointee)
  | element {element size} : Under registry element (.array element size)
  | ret {ret params variadic} : Under registry ret (.function ret params variadic)
  | param {ret params variadic param} (h : param ∈ params) :
      Under registry param (.function ret params variadic)
  | typedef {name underlying} (h : registry.typedef? name = some underlying) :
      Under registry underlying (.typedef name)

/-- What the known typedefs among the names stand for has no endless chain under it. -/
def Grounded (registry : Registry) (names : List String) : Prop :=
  ∀ name ∈ names, ∀ underlying, registry.typedef? name = some underlying →
    Acc registry.Under underlying

mutual

theorem acc_under (type : CType) (h : registry.Grounded type.mentions) :
    Acc registry.Under type := by
  match type with
  | .primitive _ | .enum _ | .record .. => exact ⟨_, fun _ hunder => by cases hunder⟩
  | .qualified _ inner =>
    refine ⟨_, fun _ hunder => ?_⟩
    cases hunder
    exact acc_under inner h
  | .pointer pointee =>
    refine ⟨_, fun _ hunder => ?_⟩
    cases hunder
    exact acc_under pointee h
  | .array element _ =>
    refine ⟨_, fun _ hunder => ?_⟩
    cases hunder
    exact acc_under element h
  | .typedef name =>
    refine ⟨_, fun underlying hunder => ?_⟩
    cases hunder with
    | typedef htypedef => exact h name (List.mem_singleton_self _) underlying htypedef
  | .function ret params _ =>
    have hret := acc_under ret fun name hname => h name (List.mem_append_left _ hname)
    have hparams := acc_under_all params fun name hname => h name (List.mem_append_right _ hname)
    refine ⟨_, fun _ hunder => ?_⟩
    cases hunder with
    | ret => exact hret
    | param hparam => exact hparams _ hparam

theorem acc_under_all (types : List CType) (h : registry.Grounded (CType.allMentions types)) :
    ∀ type ∈ types, Acc registry.Under type := by
  match types with
  | [] => simp
  | first :: rest =>
    have hfirst := acc_under first fun name hname => h name (List.mem_append_left _ hname)
    have hrest := acc_under_all rest fun name hname => h name (List.mem_append_right _ hname)
    exact List.forall_mem_cons.mpr ⟨hfirst, hrest⟩

end

theorem acc_under_of_settles {n : Nat} {type : CType} (h : registry.Settles n type) :
    Acc registry.Under type := by
  induction n generalizing type with
  | zero =>
    refine acc_under type fun name hname underlying htypedef => ?_
    rw [h name hname] at htypedef
    cases htypedef
  | succ n ih =>
    exact acc_under type fun name hname underlying htypedef => ih (h name hname underlying htypedef)

/-- Without cycles, a claim about a type may be proved from the same claim about all types under
it, those that its typedefs stand for included. -/
theorem wellFounded_under (hacyclic : registry.Acyclic) : WellFounded registry.Under :=
  ⟨fun type => acc_under_of_settles (settles_length hacyclic type)⟩

end Registry

end HeaderInterop
