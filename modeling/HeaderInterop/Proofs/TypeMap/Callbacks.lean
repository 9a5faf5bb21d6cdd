import HeaderInterop.Proofs.Except
import HeaderInterop.Proofs.TypeMap.Levels
import HeaderInterop.Proofs.TypeMap.Words

/-!
Pointers to functions. What a pointer points to is looked at behind qualifiers and typedefs, kept
ones included; if it is a function type, the pointer is mapped by the signature of that.
-/

namespace HeaderInterop.TypeMapper

variable {mapper : TypeMapper} {name : String}

/-- The type is a function type of this signature, behind qualifiers and typedefs. -/
inductive IsCallback (mapper : TypeMapper) (ret : CType) (params : List CType) (variadic : Bool) :
    CType → Prop where
  | function : IsCallback mapper ret params variadic (.function ret params variadic)
  | qualified {qualifier inner} (h : IsCallback mapper ret params variadic inner) :
      IsCallback mapper ret params variadic (.qualified qualifier inner)
  | typedef {synonym underlying} (hsubstitute : mapper.substitute? synonym = none)
      (htypedef : mapper.registry.typedef? synonym = some underlying)
      (h : IsCallback mapper ret params variadic underlying) :
      IsCallback mapper ret params variadic (.typedef synonym)

/-- The managed name of a type as a part of a function pointer. -/
def partText? (mapper : TypeMapper) (type : CType) : Option String :=
  mapper.part? type (mapper.map type)

/-- The managed name of a pointer to a function of that type. -/
def signatureText (mapper : TypeMapper) (ret : CType) (params : List CType) (variadic : Bool) :
    String :=
  if variadic then "nint"
  else (((params ++ [ret]).mapM mapper.partText?).map delegateText).getD "nint"

/-- What a part of a function pointer that stands for a truth value is replaced with. -/
def truthValue? (mapper : TypeMapper) (type : CType) : Option String :=
  match mapper.boolLikePart? type with
  | some integer => some integer
  | none => (mapper.map type).bind mapper.boolLike?

theorem partText?_eq (type : CType) :
    mapper.partText? type =
      match mapper.truthValue? type with
      | some integer => some integer
      | none => mapper.map type := by
  unfold partText? part? truthValue?
  cases mapper.boolLikePart? type with
  | some integer => rfl
  | none =>
    cases mapper.map type with
    | none => rfl
    | some managed =>
      simp only [Option.map_some, Option.bind_some]
      cases mapper.boolLike? managed <;> rfl

theorem IsCallback.under {ret : CType} {params : List CType} {variadic : Bool} {type : CType}
    (h : IsCallback mapper ret params variadic type) :
    Relation.ReflTransGen mapper.registry.Under (.function ret params variadic) type := by
  induction h with
  | function => exact .refl
  | qualified _ ih => exact ih.tail .qualified
  | typedef _ htypedef _ ih => exact ih.tail (.typedef htypedef)

/-- The parts of a callback are under a pointer to it. -/
theorem IsCallback.part_under {ret : CType} {params : List CType} {variadic : Bool}
    {pointee part : CType} (h : IsCallback mapper ret params variadic pointee)
    (hpart : part ∈ params ++ [ret]) :
    Relation.TransGen mapper.registry.Under part (.pointer pointee) := by
  have hunder : mapper.registry.Under part (.function ret params variadic) := by
    rcases List.mem_append.mp hpart with hparam | hret
    · exact .param hparam
    · rw [List.mem_singleton.mp hret]
      exact .ret
  exact .trans_left (.single hunder) (h.under.tail .pointee)

/-! Function types behind typedefs -/

theorem partsAt_beneath (types : List CType) :
    partsAt mapper mapper.beneath types = types.mapM mapper.partText? := by
  induction types with
  | nil => rfl
  | cons type rest ih =>
    have hpart : mapper.part? type (mapAt mapper mapper.beneath false type) =
        mapper.partText? type := rfl
    rw [partsAt, ih, hpart, List.mapM_cons]
    cases mapper.partText? type with
    | none => rfl
    | some part => cases rest.mapM mapper.partText? <;> rfl

theorem delegate_function (ret : CType) (params : List CType) (variadic : Bool) :
    mapper.top.delegate (.function ret params variadic) =
      some (mapper.signatureText ret params variadic) := by
  have hpart : mapper.part? ret (mapAt mapper mapper.beneath false ret) = mapper.partText? ret :=
    rfl
  rw [top_delegate, delegateAt, partsAt_beneath, hpart, signatureText]
  cases variadic with
  | true => rfl
  | false =>
    rw [List.mapM_append]
    cases params.mapM mapper.partText? with
    | none => rfl
    | some parts => cases hret : mapper.partText? ret <;> simp [hret]

theorem functionPointer_function (ret : CType) (params : List CType) (variadic : Bool) :
    mapper.functionPointer (.function ret params variadic) =
      mapper.signatureText ret params variadic :=
  congrArg (·.getD "nint") (delegate_function ret params variadic)

/-- Only a callback has a function pointer, which is an address or a delegate. -/
theorem isCallback_of_delegate {n : Nat} {type : CType} {text : String}
    (h : (mapper.resolver n).delegate type = some text) :
    (∃ ret params variadic, IsCallback mapper ret params variadic type) ∧
      (text = "nint" ∨ ∃ parts, text = delegateText parts) := by
  -- A level follows one typedef; at each level, the qualifiers in front of it come off first.
  induction n generalizing type with
  | zero => cases h
  | succ n ih =>
    rw [resolver] at h
    induction type using CType.unqualified.induct with
    | case1 qualifier inner ihinner =>
      obtain ⟨⟨ret, params, variadic, hinner⟩, htext⟩ := ihinner h
      exact ⟨⟨ret, params, variadic, .qualified hinner⟩, htext⟩
    | case2 type hqualified =>
      cases type with
      | qualified qualifier inner => exact absurd rfl (hqualified qualifier inner)
      | typedef synonym =>
        simp only [delegateAt] at h
        split at h
        · cases h
        next hsubstitute =>
          rw [Bool.not_eq_true, Option.isSome_eq_false_iff, Option.isNone_iff_eq_none] at hsubstitute
          obtain ⟨underlying, htypedef, hdelegate⟩ := Option.bind_eq_some_iff.mp h
          obtain ⟨⟨ret, params, variadic, hunderlying⟩, htext⟩ := ih hdelegate
          exact ⟨⟨ret, params, variadic, .typedef hsubstitute htypedef hunderlying⟩, htext⟩
      | function ret params variadic =>
        refine ⟨⟨ret, params, variadic, .function⟩, ?_⟩
        simp only [delegateAt] at h
        split at h
        · exact .inl (Option.some.inj h).symm
        · split at h
          · exact .inl (Option.some.inj h).symm
          · split at h
            · exact .inl (Option.some.inj h).symm
            · exact .inr ⟨_, (Option.some.inj h).symm⟩
      | primitive | enum | record | pointer | array => simp only [delegateAt, reduceCtorEq] at h

/-- The type is a function type behind that many typedefs, with qualifiers at any place. -/
inductive CallbackBehind (mapper : TypeMapper) : Nat → CType → Prop where
  | function {ret params variadic} : CallbackBehind mapper 0 (.function ret params variadic)
  | qualified {links qualifier inner} (h : CallbackBehind mapper links inner) :
      CallbackBehind mapper links (.qualified qualifier inner)
  | typedef {links synonym underlying} (hsubstitute : mapper.substitute? synonym = none)
      (htypedef : mapper.registry.typedef? synonym = some underlying)
      (h : CallbackBehind mapper links underlying) :
      CallbackBehind mapper (links + 1) (.typedef synonym)

theorem IsCallback.exists_links {ret : CType} {params : List CType} {variadic : Bool}
    {type : CType} (h : IsCallback mapper ret params variadic type) :
    ∃ links, CallbackBehind mapper links type := by
  induction h with
  | function => exact ⟨0, .function⟩
  | qualified _ ih =>
    obtain ⟨links, hinner⟩ := ih
    exact ⟨links, .qualified hinner⟩
  | typedef hsubstitute htypedef _ ih =>
    obtain ⟨links, hunderlying⟩ := ih
    exact ⟨links + 1, .typedef hsubstitute htypedef hunderlying⟩

namespace CallbackBehind

variable {links : Nat} {type : CType}

theorem unique {others : Nat} (h : CallbackBehind mapper links type)
    (hothers : CallbackBehind mapper others type) : links = others := by
  induction h generalizing others with
  | function =>
    cases hothers
    rfl
  | qualified _ ih =>
    cases hothers with
    | qualified hinner => exact ih hinner
  | typedef _ htypedef _ ih =>
    cases hothers with
    | typedef _ hsame hunderlying =>
      rw [htypedef, Option.some.injEq] at hsame
      exact congrArg (· + 1) (ih (hsame ▸ hunderlying))

theorem exists_known (h : CallbackBehind mapper links type) (n : Nat) (hn : n < links) :
    ∃ synonym ∈ mapper.registry.known, CallbackBehind mapper (n + 1) (.typedef synonym) := by
  induction h with
  | function => cases hn
  | qualified _ ih => exact ih hn
  | @typedef links synonym underlying hsubstitute htypedef hunderlying ih =>
    rcases Nat.lt_succ_iff_lt_or_eq.mp hn with hlt | rfl
    · exact ih hlt
    · exact ⟨synonym, Registry.mem_known htypedef, .typedef hsubstitute htypedef hunderlying⟩

/-- The typedefs in front of a function type are different ones. -/
theorem links_le (h : CallbackBehind mapper links type) :
    links ≤ mapper.registry.typedefs.length := by
  choose! synonym hknown hbehind using h.exists_known
  have hmaps : ∀ n ∈ (Finset.range links : Set Nat), synonym n ∈ mapper.registry.known :=
    fun n hn => hknown n (Finset.mem_range.mp hn)
  have hinj : Set.InjOn synonym (Finset.range links) := by
    intro first hfirst second hsecond hsame
    have hlast := hbehind second (Finset.mem_range.mp hsecond)
    have hlinks := (hbehind first (Finset.mem_range.mp hfirst)).unique (hsame ▸ hlast)
    omega
  have hcard := Set.ncard_le_ncard_of_injOn synonym hmaps hinj mapper.registry.known_finite
  rw [Set.ncard_coe_finset, Finset.card_range] at hcard
  exact hcard.trans mapper.registry.ncard_known_le

theorem isSome_delegate (h : CallbackBehind mapper links type) {n : Nat} (hn : links < n) :
    ((mapper.resolver n).delegate type).isSome = true := by
  obtain ⟨n, rfl⟩ : ∃ m, n = m + 1 := ⟨n - 1, by omega⟩
  rw [resolver]
  induction h generalizing n with
  | function =>
    simp only [delegateAt]
    split
    · rfl
    · split
      · rfl
      · split <;> rfl
  | qualified _ ih => exact ih n hn
  | @typedef links synonym underlying hsubstitute htypedef _ ih =>
    obtain ⟨n, rfl⟩ : ∃ m, n = m + 1 := ⟨n - 1, by omega⟩
    simp only [delegateAt, hsubstitute, htypedef]
    exact ih n (by omega)

end CallbackBehind

/-- Cycles or not, the mapping follows typedefs far enough to find a function type behind them. -/
theorem isSome_delegate_iff {type : CType} :
    (mapper.top.delegate type).isSome = true ↔
      ∃ ret params variadic, IsCallback mapper ret params variadic type := by
  constructor
  · intro h
    obtain ⟨text, htext⟩ := Option.isSome_iff_exists.mp h
    exact (isCallback_of_delegate htext).1
  · rintro ⟨ret, params, variadic, hcallback⟩
    obtain ⟨links, hbehind⟩ := hcallback.exists_links
    have hlinks := hbehind.links_le
    exact hbehind.isSome_delegate (by omega)

theorem delegate_eq_none_iff {type : CType} :
    mapper.top.delegate type = none ↔
      ∀ ret params variadic, ¬ IsCallback mapper ret params variadic type := by
  rw [← Option.not_isSome_iff_eq_none, isSome_delegate_iff]
  simp only [not_exists]

section Acyclic

variable (hacyclic : mapper.registry.Acyclic)
include hacyclic

theorem delegate_of_isCallback {ret : CType} {params : List CType} {variadic : Bool}
    {type : CType} (h : IsCallback mapper ret params variadic type) :
    mapper.top.delegate type = some (mapper.signatureText ret params variadic) := by
  induction h with
  | function => exact delegate_function ret params variadic
  | qualified _ ih => rwa [← delegateAt_top hacyclic, delegateAt, delegateAt_top hacyclic]
  | typedef hsubstitute htypedef _ ih =>
    rw [← delegateAt_top hacyclic, delegateAt, hsubstitute, htypedef]
    exact ih

end Acyclic

/-- The names of a function pointer are those of its parts, and there are none if some part has no
managed name. -/
theorem names_signatureText {ret : CType} {params : List CType} {variadic : Bool} :
    Names name (mapper.signatureText ret params variadic) ↔
      variadic = false ∧ (∀ type ∈ params ++ [ret], (mapper.partText? type).isSome) ∧
        ∃ type ∈ params ++ [ret], ∃ text, mapper.partText? type = some text ∧ Names name text := by
  have hnint : ¬ Names name "nint" := not_names_of_words (by decide)
  unfold signatureText
  cases variadic with
  | true => simpa using hnint
  | false =>
    rw [if_neg Bool.false_ne_true]
    rw [← isSome_mapM_iff]
    cases hparts : (params ++ [ret]).mapM mapper.partText? with
    | none => simpa using hnint
    | some parts =>
      have hmem := mem_iff_of_mapM_eq_some hparts
      rw [Option.map_some, Option.getD_some, names_delegateText]
      constructor
      · rintro ⟨part, hpart, hnames⟩
        obtain ⟨type, htype, htext⟩ := (hmem part).mp hpart
        exact ⟨rfl, rfl, type, htype, part, htext, hnames⟩
      · rintro ⟨_, _, type, htype, part, htext, hnames⟩
        exact ⟨part, (hmem part).mpr ⟨type, htype, htext⟩, hnames⟩

end HeaderInterop.TypeMapper
