import HeaderInterop.Proofs.CType.RoundTrip
import HeaderInterop.Proofs.TypeMap.Expressions
import HeaderInterop.Proofs.TypeMap.Substituted

/-!
Signatures of function pointers. From types and typedefs with proper names the mapping makes
expressions only. A function pointer with a signature has one argument for each parameter and one
for the return type, in order, however deep function pointers are nested in it.
-/

namespace HeaderInterop

namespace CType

mutual

/-- The names in a type, in any position. -/
def names : CType → List String
  | .typedef name => [name]
  | .enum name | .record _ name => name.toList
  | .qualified _ inner => inner.names
  | .pointer pointee => pointee.names
  | .array element _ => element.names
  | .function ret params _ => ret.names ++ allNames params
  | .primitive _ => []

def allNames : List CType → List String
  | [] => []
  | type :: rest => type.names ++ allNames rest

end

def HasProperNames (type : CType) : Prop :=
  ∀ name ∈ type.names, isName name = true

instance (type : CType) : Decidable type.HasProperNames :=
  inferInstanceAs (Decidable (∀ name ∈ type.names, isName name = true))

theorem isName_of_isTagName {name : String} (h : isTagName name = true) : isName name = true :=
  (Bool.and_eq_true_iff.mp h).1

mutual

theorem hasProperNames_of_isNormal (type : CType) (h : type.isNormal = true) :
    type.HasProperNames := by
  match type with
  | .primitive _ => exact List.forall_mem_nil _
  | .qualified _ inner => exact hasProperNames_of_isNormal inner (Bool.and_eq_true_iff.mp h).2
  | .enum name | .record _ name =>
    intro tag htag
    obtain rfl := Option.mem_toList.mp htag
    exact isName_of_isTagName h
  | .typedef name =>
    intro used hused
    obtain rfl := List.mem_singleton.mp hused
    exact isName_of_isTagName (Bool.and_eq_true_iff.mp h).1
  | .pointer pointee => exact hasProperNames_of_isNormal pointee h
  | .array element _ => exact hasProperNames_of_isNormal element (Bool.and_eq_true_iff.mp h).1
  | .function ret params _ =>
    obtain ⟨hret, hparams⟩ := Bool.and_eq_true_iff.mp h
    exact List.forall_mem_append.mpr
      ⟨hasProperNames_of_isNormal ret (Bool.and_eq_true_iff.mp hret).1,
        allHaveProperNames_of_allNormal params hparams⟩

theorem allHaveProperNames_of_allNormal (types : List CType) (h : allNormal types = true) :
    ∀ name ∈ allNames types, isName name = true := by
  match types with
  | [] => exact List.forall_mem_nil _
  | type :: rest =>
    obtain ⟨htype, hrest⟩ := Bool.and_eq_true_iff.mp h
    exact List.forall_mem_append.mpr
      ⟨hasProperNames_of_isNormal type htype, allHaveProperNames_of_allNormal rest hrest⟩

end

theorem mem_allNames {types : List CType} {type : CType} {name : String} (htype : type ∈ types)
    (hname : name ∈ type.names) : name ∈ allNames types := by
  induction types with
  | nil => cases htype
  | cons first rest ih =>
    rcases List.mem_cons.mp htype with rfl | hrest
    · exact List.mem_append_left _ hname
    · exact List.mem_append_right _ (ih hrest)

theorem hasProperNames_of_mem_parts {ret : CType} {params : List CType} {variadic : Bool}
    (h : (function ret params variadic).HasProperNames) :
    ∀ part ∈ params ++ [ret], part.HasProperNames := by
  obtain ⟨hret, hparams⟩ := List.forall_mem_append.mp h
  intro part hpart
  rcases List.mem_append.mp hpart with hparam | hlast
  · exact fun name hname => hparams name (mem_allNames hparam hname)
  · rwa [List.mem_singleton.mp hlast]

end CType

/-- The names in what typedefs stand for are proper. -/
def Registry.HasProperNames (registry : Registry) : Prop :=
  ∀ name underlying, registry.typedef? name = some underlying → underlying.HasProperNames

theorem Registry.hasProperNames_of_forall {registry : Registry}
    (h : ∀ entry ∈ registry.typedefs, entry.2.HasProperNames) : registry.HasProperNames := by
  intro name underlying htypedef
  obtain ⟨before, after, htypedefs, _⟩ := List.lookup_eq_some_iff.mp htypedef
  exact h (name, underlying) (by simp [htypedefs])

namespace TypeMapper

variable {mapper : TypeMapper} {below : Resolver} {text : String}

/-- What the resolver makes of the types that typedefs stand for are expressions. -/
structure Resolver.Expresses (mapper : TypeMapper) (resolver : Resolver) : Prop where
  map {name underlying pointer text} (h : mapper.registry.typedef? name = some underlying) :
    resolver.map pointer underlying = some text → IsExpression mapper.settings text
  delegate {name underlying text} (h : mapper.registry.typedef? name = some underlying) :
    resolver.delegate underlying = some text → IsExpression mapper.settings text

theorem IsExpression.starred (h : IsExpression mapper.settings text) (pointer : Bool) :
    IsExpression mapper.settings (starred pointer text) := by
  cases pointer with
  | false => exact h
  | true => exact h.star

theorem isExpression_primitive? {pointer : Bool} {kind : Primitive}
    (h : primitive? pointer kind = some text) : IsExpression mapper.settings text := by
  unfold primitive? at h
  split at h
  · obtain rfl := Option.some.inj h
    cases pointer with
    | false => exact .word (.builtIn (show primitiveName? .void = some "void" from rfl))
    | true => exact .word .address
  · obtain ⟨name, hname, rfl⟩ := Option.map_eq_some_iff.mp h
    exact (IsExpression.word (.builtIn hname)).starred pointer

theorem isWord_substitute? {name : String} (h : mapper.substitute? name = some text) :
    IsWord mapper.settings text := by
  rcases substitute?_eq_some_iff.mp h with ⟨before, mapping, after, hmappings, _, _, rfl⟩ | ⟨_, _, rfl⟩
  · exact .managed (by simp [hmappings])
  · exact .address

theorem isWord_boolLike? {name : String} (h : mapper.boolLike? name = some text) :
    IsWord mapper.settings text := by
  obtain ⟨before, mapping, after, hmappings, _, _, rfl⟩ := mappedName?_eq_some_iff.mp h
  exact .managed (by simp [hmappings])

theorem isWord_cleanName {name : String} (h : isName name = true) :
    IsWord mapper.settings (mapper.cleanName name) := by
  unfold cleanName
  cases hsubstitute : mapper.substitute? name with
  | none => exact .native h
  | some managed => exact isWord_substitute? hsubstitute

theorem isExpression_part? {type : CType} {managed : Option String}
    (hmanaged : ∀ name, managed = some name → IsExpression mapper.settings name)
    (h : mapper.part? type managed = some text) : IsExpression mapper.settings text := by
  unfold part? at h
  split at h
  next integer hinteger =>
    obtain rfl := Option.some.inj h
    unfold boolLikePart? at hinteger
    split at hinteger
    · exact .word (isWord_boolLike? hinteger)
    · cases hinteger
  next =>
    obtain ⟨name, hname, rfl⟩ := Option.map_eq_some_iff.mp h
    cases htruth : mapper.boolLike? name with
    | none => exact hmanaged name hname
    | some integer => exact .word (isWord_boolLike? htruth)

theorem isExpression_typedefAt (hbelow : below.Expresses mapper) {pointer : Bool} {name : String} (hname : isName name = true)
    (h : mapper.typedefAt below pointer name = some text) : IsExpression mapper.settings text := by
  unfold typedefAt at h
  split at h
  next managed hsubstitute =>
    obtain rfl := Option.some.inj h
    exact (IsExpression.word (isWord_substitute? hsubstitute)).starred pointer
  next =>
    split at h
    · obtain rfl := Option.some.inj h
      exact (IsExpression.word (.native hname)).starred pointer
    · obtain ⟨underlying, htypedef, hmap⟩ := Option.bind_eq_some_iff.mp h
      exact hbelow.map htypedef hmap

mutual

theorem isExpression_mapAt (hbelow : below.Expresses mapper) (type : CType)
    (htype : type.HasProperNames) (pointer : Bool) (text : String)
    (h : mapAt mapper below pointer type = some text) :
    IsExpression mapper.settings text := by
  match type with
  | .primitive kind => exact isExpression_primitive? h
  | .qualified _ inner => exact isExpression_mapAt hbelow inner htype pointer text h
  | .enum name | .record _ name =>
    obtain ⟨tag, rfl, rfl⟩ := Option.map_eq_some_iff.mp h
    have htag : isName tag = true := htype tag (List.mem_singleton_self tag)
    exact (IsExpression.word (isWord_cleanName htag)).starred pointer
  | .typedef name =>
    exact isExpression_typedefAt hbelow (htype name (List.mem_singleton_self name)) h
  | .pointer pointee =>
    rw [mapAt] at h
    obtain ⟨managed, hmanaged, rfl⟩ := Option.map_eq_some_iff.mp h
    refine IsExpression.starred ?_ pointer
    cases hdelegate : delegateAt mapper below pointee with
    | some signature =>
      rw [hdelegate] at hmanaged
      obtain rfl := Option.some.inj hmanaged
      exact isExpression_delegateAt hbelow pointee htype signature hdelegate
    | none =>
      rw [hdelegate] at hmanaged
      simp only at hmanaged
      split at hmanaged
      · obtain rfl := Option.some.inj hmanaged
        exact (IsExpression.word (.builtIn (show primitiveName? .void = some "void" from rfl))).star
      · exact isExpression_mapAt hbelow pointee htype true managed hmanaged
  | .array element _ =>
    rw [mapAt] at h
    exact isExpression_mapAt hbelow element htype true text h
  | .function .. => cases h

theorem isExpression_delegateAt (hbelow : below.Expresses mapper) (type : CType)
    (htype : type.HasProperNames) (text : String)
    (h : delegateAt mapper below type = some text) : IsExpression mapper.settings text := by
  match type with
  | .primitive _ | .enum _ | .record .. | .pointer _ | .array .. => cases h
  | .qualified _ inner => exact isExpression_delegateAt hbelow inner htype text h
  | .typedef name =>
    rw [delegateAt] at h
    split at h
    · cases h
    · obtain ⟨underlying, htypedef, hdelegate⟩ := Option.bind_eq_some_iff.mp h
      exact hbelow.delegate htypedef hdelegate
  | .function ret params variadic =>
    obtain ⟨hret, hparams⟩ := List.forall_mem_append.mp htype
    rw [delegateAt] at h
    split at h
    · obtain rfl := Option.some.inj h
      exact .word .address
    · split at h
      · obtain rfl := Option.some.inj h
        exact .word .address
      next parts hparts =>
        split at h
        · obtain rfl := Option.some.inj h
          exact .word .address
        next last hlast =>
          obtain rfl := Option.some.inj h
          refine .delegate (by simp) (List.forall_mem_append.mpr ⟨?_, ?_⟩)
          · exact isExpression_partsAt hbelow params hparams parts hparts
          · rw [List.forall_mem_singleton]
            exact isExpression_part? (isExpression_mapAt hbelow ret hret false) hlast

theorem isExpression_partsAt (hbelow : below.Expresses mapper) (types : List CType)
    (htypes : ∀ name ∈ CType.allNames types, isName name = true) (parts : List String)
    (h : partsAt mapper below types = some parts) :
    ∀ part ∈ parts, IsExpression mapper.settings part := by
  match types with
  | [] =>
    obtain rfl := Option.some.inj h
    exact List.forall_mem_nil _
  | type :: rest =>
    obtain ⟨htype, hrest⟩ := List.forall_mem_append.mp htypes
    rw [partsAt] at h
    split at h
    · cases h
    next part hpart =>
      obtain ⟨others, hothers, rfl⟩ := Option.map_eq_some_iff.mp h
      exact List.forall_mem_cons.mpr ⟨isExpression_part? (isExpression_mapAt hbelow type htype false) hpart,
        isExpression_partsAt hbelow rest hrest others hothers⟩

end

theorem resolver_expresses (hregistry : mapper.registry.HasProperNames) (n : Nat) :
    (mapper.resolver n).Expresses mapper := by
  induction n with
  | zero =>
    constructor
    · intro name underlying pointer text _ h
      cases h
    · intro name underlying text _ h
      cases h
  | succ n ih =>
    constructor
    · intro name underlying pointer text htypedef h
      exact isExpression_mapAt ih underlying (hregistry name underlying htypedef) pointer text h
    · intro name underlying text htypedef h
      exact isExpression_delegateAt ih underlying (hregistry name underlying htypedef) text h

/-! Arguments of a signature -/

theorem partText?_eq_none_iff {type : CType} :
    mapper.partText? type = none ↔ mapper.boolLikePart? type = none ∧ mapper.map type = none := by
  unfold partText? part?
  cases mapper.boolLikePart? type <;> simp

theorem signatureText_eq_nint_iff {ret : CType} {params : List CType} {variadic : Bool} :
    mapper.signatureText ret params variadic = "nint" ↔
      variadic = true ∨ ∃ part ∈ params ++ [ret], mapper.partText? part = none := by
  unfold signatureText
  cases variadic with
  | true => exact iff_of_true rfl (.inl rfl)
  | false =>
    have hnone : (∃ part ∈ params ++ [ret], mapper.partText? part = none) ↔
        (params ++ [ret]).mapM mapper.partText? = none := by
      rw [← Option.not_isSome_iff_eq_none, isSome_mapM_iff]
      simp
    rw [hnone]
    cases (params ++ [ret]).mapM mapper.partText? with
    | none => simp
    | some arguments => simp [delegateText_ne_nint]

theorem exists_arguments_of_signatureText_ne {ret : CType} {params : List CType} {variadic : Bool}
    (h : mapper.signatureText ret params variadic ≠ "nint") :
    ∃ arguments, (params ++ [ret]).mapM mapper.partText? = some arguments ∧
      mapper.signatureText ret params variadic = delegateText arguments := by
  unfold signatureText at h ⊢
  cases variadic with
  | true => exact absurd rfl h
  | false =>
    rw [if_neg Bool.false_ne_true] at h ⊢
    cases hparts : (params ++ [ret]).mapM mapper.partText? with
    | none =>
      rw [hparts] at h
      exact absurd rfl h
    | some arguments => exact ⟨arguments, rfl, rfl⟩

/-- The mapping makes an expression of any type that can be written, if it makes something of it,
and a signature of a function type, unless it has a variable number of parameters or a part has no
managed name and is not written as a truth value. The arguments can be read off the signature: they
are the texts of the parameters, in order, and of the return type. -/
theorem isExpression_map_and_argumentsOf (hunmarked : Unmarked mapper.settings)
    (hregistry : mapper.registry.HasProperNames) :
    (∀ source type text, CType.parse source = .ok type → mapper.map type = some text →
        IsExpression mapper.settings text) ∧
      ∀ ret params variadic, (CType.function ret params variadic).HasProperNames →
        (mapper.functionPointer (.function ret params variadic) = "nint" ↔
          variadic = true ∨ ∃ part ∈ params ++ [ret],
            mapper.boolLikePart? part = none ∧ mapper.map part = none) ∧
        (mapper.functionPointer (.function ret params variadic) ≠ "nint" →
          ∃ arguments,
            mapper.functionPointer (.function ret params variadic) = delegateText arguments ∧
            (params ++ [ret]).map mapper.partText? = arguments.map some ∧
            (∀ argument ∈ arguments, IsExpression mapper.settings argument) ∧
            argumentsOf (mapper.functionPointer (.function ret params variadic)) = arguments) := by
  have hbeneath : mapper.beneath.Expresses mapper := resolver_expresses hregistry _
  refine ⟨fun source type text hparse hmap => ?_, fun ret params variadic hnames => ⟨?_, ?_⟩⟩
  · have htype := CType.hasProperNames_of_isNormal type (CType.normal_of_parse hparse)
    exact isExpression_mapAt hbeneath type htype false text hmap
  · rw [functionPointer_function, signatureText_eq_nint_iff]
    simp only [partText?_eq_none_iff]
  · intro hsignature
    rw [functionPointer_function] at hsignature ⊢
    obtain ⟨arguments, htexts, hsame⟩ := exists_arguments_of_signatureText_ne hsignature
    have hparts : ∀ part ∈ params ++ [ret], part.HasProperNames :=
      CType.hasProperNames_of_mem_parts hnames
    have hexpressions : ∀ argument ∈ arguments, IsExpression mapper.settings argument := by
      intro argument hargument
      obtain ⟨part, hpart, htext⟩ := (mem_iff_of_mapM_eq_some htexts argument).mp hargument
      exact isExpression_part? (isExpression_mapAt hbeneath part (hparts part hpart) false) htext
    have hne : arguments ≠ [] := by
      rintro rfl
      simpa using congrArg List.length (mapM_eq_some_iff.mp htexts)
    refine ⟨arguments, hsame, mapM_eq_some_iff.mp htexts, hexpressions, ?_⟩
    rw [hsame]
    exact argumentsOf_delegateText hne fun argument hargument =>
      (hexpressions argument hargument).staysInside hunmarked

def handler : CType := CType.typedef "Handler"

def truthValue : CType := CType.typedef "SDL_bool"

def handlerSignature : CType :=
  .function (.primitive .void) [.pointer (.primitive .void), truthValue] false

/-- `typedef void (*Handler)(void *, SDL_bool);`. -/
def handlerMapper : TypeMapper where
  settings := Config.standard.types
  registry := { typedefs := [("Handler", .pointer handlerSignature)] }

/-- A function pointer that takes a function pointer. -/
theorem isExpression_map_and_argumentsOf_handler :
    Unmarked handlerMapper.settings ∧ handlerMapper.registry.HasProperNames ∧
      CType.parse handler.print = .ok handler ∧
      IsExpression handlerMapper.settings "delegate* unmanaged<nint, int, void>" ∧
      (CType.function (.primitive .int) [handler, .pointer (.primitive .char)] false).HasProperNames ∧
      handlerMapper.functionPointer
          (.function (.primitive .int) [handler, .pointer (.primitive .char)] false) =
        "delegate* unmanaged<delegate* unmanaged<nint, int, void>, sbyte*, int>" ∧
      argumentsOf "delegate* unmanaged<delegate* unmanaged<nint, int, void>, sbyte*, int>" =
        ["delegate* unmanaged<nint, int, void>", "sbyte*", "int"] := by
  have hunmarked : Unmarked handlerMapper.settings := by decide
  have hregistry : handlerMapper.registry.HasProperNames :=
    Registry.hasProperNames_of_forall (by decide)
  have hparse : CType.parse handler.print = .ok handler := CType.parse_print (by decide +kernel)
  have hmap : handlerMapper.map handler = some "delegate* unmanaged<nint, int, void>" := by
    decide +kernel
  have hnames :
      (CType.function (.primitive .int) [handler, .pointer (.primitive .char)] false).HasProperNames :=
    by decide
  have htext : handlerMapper.functionPointer
      (.function (.primitive .int) [handler, .pointer (.primitive .char)] false) =
        "delegate* unmanaged<delegate* unmanaged<nint, int, void>, sbyte*, int>" := by
    decide +kernel
  have htexts : [handler, .pointer (.primitive .char), .primitive .int].map
      handlerMapper.partText? =
        ["delegate* unmanaged<nint, int, void>", "sbyte*", "int"].map some := by
    decide +kernel
  obtain ⟨hexpression, hfunctions⟩ := isExpression_map_and_argumentsOf hunmarked hregistry
  obtain ⟨-, harguments⟩ := hfunctions _ _ _ hnames
  obtain ⟨arguments, -, hsame, -, hread⟩ := harguments (by rw [htext]; decide)
  obtain rfl : arguments = ["delegate* unmanaged<nint, int, void>", "sbyte*", "int"] :=
    List.map_injective_iff.mpr (Option.some_injective String) (hsame.symm.trans htexts)
  rw [htext] at hread
  exact ⟨hunmarked, hregistry, hparse, hexpression _ _ _ hparse hmap, hnames, htext, hread⟩

def undeclared : CType := CType.typedef "VkBool32"

/-- No header declares anything. -/
def bareMapper : TypeMapper where
  settings := Config.standard.types
  registry := {}

/-- A part without a managed name does not rule out a signature if it is written as a truth value. -/
theorem functionPointer_undeclared_ne :
    Unmarked bareMapper.settings ∧ bareMapper.registry.Acyclic ∧
      bareMapper.registry.HasProperNames ∧
      bareMapper.functionPointer (.function (.primitive .void) [undeclared] false) =
        "delegate* unmanaged<uint, void>" ∧
      ¬ (bareMapper.functionPointer (.function (.primitive .void) [undeclared] false) = "nint" ↔
        false = true ∨
          ∃ part ∈ [undeclared] ++ [.primitive .void], bareMapper.map part = none) := by
  have htext : bareMapper.functionPointer (.function (.primitive .void) [undeclared] false) =
      "delegate* unmanaged<uint, void>" := by decide +kernel
  have hnone : bareMapper.map undeclared = none := by decide +kernel
  refine ⟨by decide, Registry.acyclic_of_pairwise (by decide) (by decide),
    Registry.hasProperNames_of_forall (by decide), htext, fun hiff => ?_⟩
  have hnint := hiff.mpr (.inr ⟨undeclared, by simp, hnone⟩)
  rw [htext] at hnint
  revert hnint
  decide

end TypeMapper

end HeaderInterop
