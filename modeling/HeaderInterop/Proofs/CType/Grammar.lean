import HeaderInterop.CType.Parser
import HeaderInterop.Proofs.Except

/-!
The grammar of types, without fuel. A phrase is what a stretch of tokens can spell, and
`Reads tokens phrase rest` says that the tokens begin with the phrase and leave `rest`. The parser
reads exactly these phrases: what it returns is one, whatever the fuel, and a phrase is returned as
soon as there are four units of fuel for every token and two more.
-/

namespace HeaderInterop.CType

/-- What a stretch of tokens can spell: a type name, a declarator, the suffixes of one, or a
parameter list with its closing parenthesis. -/
inductive Phrase where
  | type (type : CType)
  | declarator (steps : List Step)
  | suffixes (steps : List Step)
  | params (types : List CType) (variadic : Bool)

/-- Whether an array or function suffix begins here. -/
def opensSuffix : List Token → Bool
  | .lbracket :: _ | .lparen :: _ => true
  | _ => false

inductive Reads : List Token → Phrase → List Token → Prop where
  | type {tokens mid rest base steps} (head : specified tokens = .ok (base, mid))
      (tail : Reads mid (.declarator steps) rest) :
      Reads tokens (.type (applySteps steps base)) rest
  | plain {tokens mid rest pointers suffixes} (head : readPointers tokens = (pointers, mid))
      (plain : opensDeclarator mid = false) (tail : Reads mid (.suffixes suffixes) rest) :
      Reads tokens (.declarator (pointers ++ suffixes.reverse)) rest
  | grouped {tokens inside mid rest pointers nested suffixes}
      (head : readPointers tokens = (pointers, .lparen :: inside))
      (opens : opensDeclarator (.lparen :: inside) = true)
      (group : Reads inside (.declarator nested) (.rparen :: mid))
      (tail : Reads mid (.suffixes suffixes) rest) :
      Reads tokens (.declarator (pointers ++ suffixes.reverse ++ nested)) rest
  | stop {tokens} (stops : opensSuffix tokens = false) : Reads tokens (.suffixes []) tokens
  | sized {size mid rest steps} (tail : Reads mid (.suffixes steps) rest) :
      Reads (.lbracket :: .number size :: .rbracket :: mid)
        (.suffixes (.array (some size) :: steps)) rest
  | unsized {mid rest steps} (tail : Reads mid (.suffixes steps) rest) :
      Reads (.lbracket :: .rbracket :: mid) (.suffixes (.array none :: steps)) rest
  | noParams {mid rest steps} (tail : Reads mid (.suffixes steps) rest) :
      Reads (.lparen :: .rparen :: mid) (.suffixes (.function [] false :: steps)) rest
  | someParams {tokens mid rest steps params variadic}
      (list : Reads tokens (.params params variadic) mid)
      (tail : Reads mid (.suffixes steps) rest) :
      Reads (.lparen :: tokens) (.suffixes (.function (dropVoid params) variadic :: steps)) rest
  | lastParam {tokens rest type} (head : Reads tokens (.type type) (.rparen :: rest)) :
      Reads tokens (.params [type] false) rest
  | param {tokens mid rest type params variadic}
      (head : Reads tokens (.type type) (.comma :: mid))
      (tail : Reads mid (.params params variadic) rest) :
      Reads tokens (.params (type :: params) variadic) rest
  | lastDots {rest} : Reads (.ellipsis :: .rparen :: rest) (.params [] true) rest
  | dots {mid rest params variadic} (tail : Reads mid (.params params variadic) rest) :
      Reads (.ellipsis :: .comma :: mid) (.params params true) rest

/-- The parser, started where the phrase is due, returns it. -/
def Phrase.ReadWith (fuel : Nat) (tokens rest : List Token) : Phrase → Prop
  | .type found => typeName fuel tokens = .ok (found, rest)
  | .declarator steps => CType.declarator fuel tokens = .ok (steps, rest)
  | .suffixes steps => declaratorSuffixes fuel tokens = .ok (steps, rest)
  | .params types variadic => parameters fuel tokens = .ok (types, variadic, rest)

theorem expect_eq_ok {token : Token} {tokens rest : List Token} :
    expect token tokens = .ok rest ↔ tokens = token :: rest := by
  cases tokens with
  | nil => simp [expect]
  | cons found others =>
    by_cases h : found = token <;> simp [expect, h]

theorem eq_lparen_of_opensDeclarator {tokens : List Token} (h : opensDeclarator tokens = true) :
    tokens = .lparen :: tokens.tail := by
  unfold opensDeclarator at h
  split at h <;> simp_all

/-! What the parser returns is a phrase. -/

section Sound

variable {fuel : Nat} (ih : ∀ {tokens rest} (phrase : Phrase), phrase.ReadWith fuel tokens rest →
  Reads tokens phrase rest)
include ih

private theorem reads_typeName {tokens rest : List Token} {type : CType}
    (h : typeName (fuel + 1) tokens = .ok (type, rest)) : Reads tokens (.type type) rest := by
  simp only [typeName, except_bind_eq_ok, except_pure_eq_ok, Prod.exists, Prod.mk.injEq] at h
  obtain ⟨base, mid, hbase, steps, rest', hsteps, rfl, rfl⟩ := h
  exact .type hbase (ih (.declarator steps) hsteps)

private theorem reads_declarator {tokens rest : List Token} {steps : List Step}
    (h : declarator (fuel + 1) tokens = .ok (steps, rest)) :
    Reads tokens (.declarator steps) rest := by
  simp only [declarator] at h
  split at h
  next hopens =>
    simp only [except_bind_eq_ok, except_pure_eq_ok, Prod.exists, Prod.mk.injEq, expect_eq_ok] at h
    obtain ⟨nested, _, hnested, mid, hclose, _, _, ⟨rfl, rfl⟩, hsuffixes⟩ := h
    obtain ⟨suffixes, rest', hsuffixes, rfl, rfl⟩ := hsuffixes
    have hhead := eq_lparen_of_opensDeclarator hopens
    exact .grouped (Prod.ext rfl hhead) (hhead ▸ hopens) (ih (.declarator _) (hclose ▸ hnested))
      (ih (.suffixes _) hsuffixes)
  next hopens =>
    simp only [except_bind_eq_ok, except_pure_eq_ok, Prod.exists, Prod.mk.injEq] at h
    obtain ⟨nested, mid, ⟨rfl, rfl⟩, suffixes, rest', hsuffixes, rfl, rfl⟩ := h
    rw [List.append_nil]
    exact .plain rfl (by simpa using hopens) (ih (.suffixes _) hsuffixes)

private theorem reads_suffixes {tokens rest : List Token} {steps : List Step}
    (h : declaratorSuffixes (fuel + 1) tokens = .ok (steps, rest)) :
    Reads tokens (.suffixes steps) rest := by
  unfold declaratorSuffixes at h
  split at h
  all_goals
    simp only [except_bind_eq_ok, except_pure_eq_ok, Prod.exists, Prod.mk.injEq, expect_eq_ok] at h
  · obtain ⟨mid, rfl, steps, rest', hsteps, rfl, rfl⟩ := h
    exact .sized (ih (.suffixes _) hsteps)
  · obtain ⟨mid, rfl, steps, rest', hsteps, rfl, rfl⟩ := h
    exact .unsized (ih (.suffixes _) hsteps)
  · obtain ⟨steps, rest', hsteps, rfl, rfl⟩ := h
    exact .noParams (ih (.suffixes _) hsteps)
  · obtain ⟨params, variadic, mid, hparams, steps, rest', hsteps, rfl, rfl⟩ := h
    exact .someParams (ih (.params _ _) hparams) (ih (.suffixes _) hsteps)
  · obtain ⟨rfl, rfl⟩ := h
    exact .stop (by unfold opensSuffix; split <;> simp_all)

private theorem reads_parameters {tokens rest : List Token} {params : List CType}
    {variadic : Bool} (h : parameters (fuel + 1) tokens = .ok (params, variadic, rest)) :
    Reads tokens (.params params variadic) rest := by
  unfold parameters at h
  split at h <;> simp only [except_bind_eq_ok, except_pure_eq_ok, Prod.exists, Prod.mk.injEq] at h
  · obtain ⟨_, _, mid, ⟨rfl, rfl, rfl⟩, h⟩ := h
    split at h <;> simp only [except_bind_eq_ok, except_pure_eq_ok, Prod.exists, Prod.mk.injEq,
      expect_eq_ok] at h
    · obtain ⟨params, variadic, rest', hparams, rfl, rfl, rfl⟩ := h
      exact .dots (ih (.params _ _) hparams)
    · obtain ⟨rest', rfl, rfl, rfl, rfl⟩ := h
      exact .lastDots
  · obtain ⟨type, _, htype, _, _, mid, ⟨rfl, rfl, rfl⟩, h⟩ := h
    split at h <;> simp only [except_bind_eq_ok, except_pure_eq_ok, Prod.exists, Prod.mk.injEq,
      expect_eq_ok] at h
    · obtain ⟨params, variadic, rest', hparams, rfl, rfl, rfl⟩ := h
      simpa using Reads.param (ih (.type _) htype) (ih (.params _ _) hparams)
    · obtain ⟨rest', rfl, rfl, rfl, rfl⟩ := h
      exact .lastParam (ih (.type _) htype)

end Sound

/-- Whatever the fuel, only phrases of the grammar are returned. -/
theorem Phrase.ReadWith.reads {fuel : Nat} {tokens rest : List Token} {phrase : Phrase}
    (h : phrase.ReadWith fuel tokens rest) : Reads tokens phrase rest := by
  induction fuel generalizing tokens phrase rest with
  | zero => cases phrase <;> simp [ReadWith, typeName, CType.declarator, declaratorSuffixes,
      parameters] at h
  | succ fuel ih =>
    have ih : ∀ {tokens rest} (phrase : Phrase), phrase.ReadWith fuel tokens rest →
        Reads tokens phrase rest := fun _ h => ih h
    cases phrase with
    | type => exact reads_typeName ih h
    | declarator => exact reads_declarator ih h
    | suffixes => exact reads_suffixes ih h
    | params => exact reads_parameters ih h

/-! A phrase is a stretch of the tokens, and a type name is not empty. -/

theorem readQualifiers_isSuffix (isConst isVolatile : Bool) (tokens : List Token) :
    (readQualifiers isConst isVolatile tokens).2.2 <:+ tokens := by
  fun_induction readQualifiers isConst isVolatile tokens
  case case1 ih | case2 ih | case3 ih => exact ih.trans (List.suffix_cons _ _)
  case case4 | case5 => exact List.suffix_rfl

theorem readPointers_isSuffix {tokens rest : List Token} {pointers : List Step}
    (h : readPointers tokens = (pointers, rest)) : rest <:+ tokens := by
  obtain rfl : (readPointers tokens).2 = rest := congrArg Prod.snd h
  clear h
  fun_induction readPointers tokens with
  | case1 rest flags more ih =>
    have hflags : flags.2.2 <:+ rest := readQualifiers_isSuffix false false rest
    exact (ih.trans hflags).trans (List.suffix_cons _ _)
  | case2 => exact List.suffix_rfl

theorem readSpecifiers_isSuffix {found found' : Specifiers} {tokens rest : List Token}
    (h : readSpecifiers found tokens = .ok (found', rest)) : rest <:+ tokens := by
  fun_induction readSpecifiers found tokens
  case case1 ih | case2 ih | case3 ih | case7 ih | case8 ih =>
    exact (ih h).trans (List.suffix_cons _ _)
  case case4 | case6 => simp at h
  case case5 ih => exact ((ih h).trans (List.suffix_cons _ _)).trans (List.suffix_cons _ _)
  case case9 | case10 =>
    simp only [Except.ok.injEq, Prod.mk.injEq] at h
    exact h.2 ▸ List.suffix_rfl

/-- What specifiers are read from begins with a word. -/
theorem specified_head {tokens rest : List Token} {type : CType}
    (h : specified tokens = .ok (type, rest)) : ∃ word tail, tokens = .ident word :: tail := by
  unfold specified readSpecifiers at h
  split at h
  · exact ⟨_, _, rfl⟩
  · simp [Specifiers.type, bind, Except.bind] at h

theorem specified_isSuffix {tokens rest : List Token} {type : CType}
    (h : specified tokens = .ok (type, rest)) : rest <:+ tokens := by
  simp only [specified, except_bind_eq_ok, except_pure_eq_ok, Prod.exists, Prod.mk.injEq] at h
  obtain ⟨found, rest, hread, _, _, _, rfl⟩ := h
  exact readSpecifiers_isSuffix hread

/-- Specifiers take at least one token, since none describe no type. -/
theorem length_lt_of_specified {tokens rest : List Token} {type : CType}
    (h : specified tokens = .ok (type, rest)) : rest.length < tokens.length := by
  obtain ⟨word, tail, rfl⟩ := specified_head h
  refine Nat.lt_succ_of_le (List.IsSuffix.length_le ?_)
  simp only [specified, except_bind_eq_ok, except_pure_eq_ok, Prod.exists, Prod.mk.injEq] at h
  obtain ⟨found, rest, hread, _, _, _, rfl⟩ := h
  simp only [readSpecifiers] at hread
  split at hread
  next => exact readSpecifiers_isSuffix hread
  next => exact readSpecifiers_isSuffix hread
  next => exact readSpecifiers_isSuffix hread
  next =>
    split at hread
    · simp at hread
    · split at hread
      · exact (readSpecifiers_isSuffix hread).trans (List.suffix_cons _ _)
      · simp at hread
  next => exact readSpecifiers_isSuffix hread
  next => exact readSpecifiers_isSuffix hread

theorem Reads.isSuffix {tokens rest : List Token} {phrase : Phrase}
    (h : Reads tokens phrase rest) : rest <:+ tokens := by
  induction h with
  | type head tail ih => exact ih.trans (specified_isSuffix head)
  | plain head _ _ ih => exact ih.trans (readPointers_isSuffix head)
  | grouped head _ _ _ ihg ih =>
    exact ((ih.trans (List.suffix_cons _ _)).trans ihg).trans
      ((List.suffix_cons _ _).trans (readPointers_isSuffix head))
  | stop => exact List.suffix_rfl
  | sized _ ih => exact ih.trans ⟨[_, _, _], rfl⟩
  | unsized _ ih => exact ih.trans ⟨[_, _], rfl⟩
  | noParams _ ih => exact ih.trans ⟨[_, _], rfl⟩
  | someParams _ _ ihl ih => exact (ih.trans ihl).trans (List.suffix_cons _ _)
  | lastParam _ ih => exact (List.suffix_cons _ _).trans ih
  | param _ _ ihh ih => exact (ih.trans (List.suffix_cons _ _)).trans ihh
  | lastDots => exact ⟨[_, _], rfl⟩
  | dots _ ih => exact ih.trans ⟨[_, _], rfl⟩

/-! A phrase of the grammar is returned. -/

/-- Fuel that is enough for a phrase in so many tokens. A type name calls for a declarator behind at
least one token, a declarator for suffixes in as many tokens, suffixes for parameters behind a
parenthesis, and parameters for a type name in as many tokens: four calls for each token. -/
def Phrase.cost (count : Nat) : Phrase → Nat
  | .type _ | .suffixes _ => 4 * count + 1
  | .declarator _ | .params .. => 4 * count + 2

theorem Phrase.exists_succ {phrase : Phrase} {count fuel : Nat} (h : phrase.cost count ≤ fuel) :
    ∃ n, fuel = n + 1 := by
  cases fuel with
  | zero => cases phrase <;> simp [cost] at h
  | succ n => exact ⟨n, rfl⟩

/-- A type name begins with a word. -/
theorem Reads.type_head {tokens rest : List Token} {type : CType}
    (h : Reads tokens (.type type) rest) : ∃ word tail, tokens = .ident word :: tail := by
  cases h with
  | type head => exact specified_head head

/-- A parameter list begins with a word or an ellipsis. -/
theorem Reads.params_head {tokens rest : List Token} {params : List CType} {variadic : Bool}
    (h : Reads tokens (.params params variadic) rest) :
    ∃ token tail, tokens = token :: tail ∧ (token = .ellipsis ∨ ∃ word, token = .ident word) := by
  cases h with
  | lastParam head =>
    obtain ⟨word, tail, rfl⟩ := head.type_head
    exact ⟨_, _, rfl, Or.inr ⟨word, rfl⟩⟩
  | param head =>
    obtain ⟨word, tail, rfl⟩ := head.type_head
    exact ⟨_, _, rfl, Or.inr ⟨word, rfl⟩⟩
  | lastDots => exact ⟨_, _, rfl, Or.inl rfl⟩
  | dots => exact ⟨_, _, rfl, Or.inl rfl⟩

theorem Reads.readWith {fuel : Nat} {tokens rest : List Token} {phrase : Phrase}
    (h : Reads tokens phrase rest) (hfuel : phrase.cost tokens.length ≤ fuel) :
    phrase.ReadWith fuel tokens rest := by
  -- Each step of the derivation takes one unit of fuel off and at least one token, or changes to
  -- a phrase that costs less in as many tokens.
  induction h generalizing fuel with
  | type head tail ih =>
    have hlt := length_lt_of_specified head
    obtain ⟨fuel, rfl⟩ := Phrase.exists_succ hfuel
    simp only [Phrase.cost] at hfuel ih
    have htail := @ih fuel (by omega)
    simp only [Phrase.ReadWith, typeName] at htail ⊢
    rw [head]
    simp only [bind, Except.bind, htail]
    rfl
  | @plain tokens mid rest pointers suffixes head hplain tail ih =>
    have hle := (readPointers_isSuffix head).length_le
    obtain ⟨fuel, rfl⟩ := Phrase.exists_succ hfuel
    simp only [Phrase.cost] at hfuel ih
    have htail := @ih fuel (by omega)
    simp only [Phrase.ReadWith, declarator] at htail ⊢
    rw [head]
    simp [hplain, htail, bind, Except.bind, pure, Except.pure]
  | @grouped tokens inside mid rest pointers nested suffixes head hopens group tail ihg ih =>
    have hle := (readPointers_isSuffix head).length_le
    have hmid := group.isSuffix.length_le
    obtain ⟨fuel, rfl⟩ := Phrase.exists_succ hfuel
    simp only [Phrase.cost, List.length_cons] at hfuel ihg ih hle hmid
    have hgroup := @ihg fuel (by omega)
    have htail := @ih fuel (by omega)
    simp only [Phrase.ReadWith, declarator] at hgroup htail ⊢
    rw [head]
    simp [hopens, hgroup, htail, expect, bind, Except.bind, pure, Except.pure]
  | @stop tokens hstops =>
    obtain ⟨fuel, rfl⟩ := Phrase.exists_succ hfuel
    simp only [Phrase.ReadWith]
    unfold declaratorSuffixes
    split <;> simp_all [opensSuffix]
  | sized tail ih =>
    obtain ⟨fuel, rfl⟩ := Phrase.exists_succ hfuel
    simp only [Phrase.cost, List.length_cons] at hfuel ih
    have htail := @ih fuel (by omega)
    simp only [Phrase.ReadWith] at htail ⊢
    simp [declaratorSuffixes, expect, htail, bind, Except.bind, pure, Except.pure]
  | unsized tail ih =>
    obtain ⟨fuel, rfl⟩ := Phrase.exists_succ hfuel
    simp only [Phrase.cost, List.length_cons] at hfuel ih
    have htail := @ih fuel (by omega)
    simp only [Phrase.ReadWith] at htail ⊢
    simp [declaratorSuffixes, expect, htail, bind, Except.bind, pure, Except.pure]
  | noParams tail ih =>
    obtain ⟨fuel, rfl⟩ := Phrase.exists_succ hfuel
    simp only [Phrase.cost, List.length_cons] at hfuel ih
    have htail := @ih fuel (by omega)
    simp only [Phrase.ReadWith] at htail ⊢
    simp [declaratorSuffixes, htail, bind, Except.bind, pure, Except.pure]
  | @someParams tokens mid rest steps params variadic list tail ihl ih =>
    have hle := list.isSuffix.length_le
    obtain ⟨fuel, rfl⟩ := Phrase.exists_succ hfuel
    simp only [Phrase.cost, List.length_cons] at hfuel ihl ih
    have hlist := @ihl fuel (by omega)
    have htail := @ih fuel (by omega)
    simp only [Phrase.ReadWith] at hlist htail ⊢
    unfold declaratorSuffixes
    split
    case h_3 heq =>
      obtain ⟨_, _, rfl, hhead⟩ := list.params_head
      simp_all
    all_goals simp_all [bind, Except.bind, pure, Except.pure]
  | @lastParam tokens rest type head ih =>
    obtain ⟨fuel, rfl⟩ := Phrase.exists_succ hfuel
    simp only [Phrase.cost] at hfuel ih
    have hhead := @ih fuel (by omega)
    simp only [Phrase.ReadWith] at hhead ⊢
    unfold parameters
    split
    · obtain ⟨_, _, h⟩ := head.type_head
      simp at h
    · simp [hhead, expect, bind, Except.bind, pure, Except.pure]
  | @param tokens mid rest type params variadic head tail ihh ih =>
    have hle := head.isSuffix.length_le
    obtain ⟨fuel, rfl⟩ := Phrase.exists_succ hfuel
    simp only [Phrase.cost, List.length_cons] at hfuel ihh ih hle
    have hhead := @ihh fuel (by omega)
    have htail := @ih fuel (by omega)
    simp only [Phrase.ReadWith] at hhead htail ⊢
    unfold parameters
    split
    · obtain ⟨_, _, h⟩ := head.type_head
      simp at h
    · simp [hhead, htail, bind, Except.bind, pure, Except.pure]
  | lastDots =>
    obtain ⟨fuel, rfl⟩ := Phrase.exists_succ hfuel
    simp [Phrase.ReadWith, parameters, expect, bind, Except.bind, pure, Except.pure]
  | dots tail ih =>
    obtain ⟨fuel, rfl⟩ := Phrase.exists_succ hfuel
    simp only [Phrase.cost, List.length_cons] at hfuel ih
    have htail := @ih fuel (by omega)
    simp only [Phrase.ReadWith] at htail ⊢
    simp [parameters, htail, bind, Except.bind, pure, Except.pure]

/-- The fuel that the parser of a whole text starts with is enough. -/
theorem ofTokens_eq_ok_iff {tokens : List Token} {type : CType} :
    ofTokens tokens = .ok type ↔ Reads tokens (.type type) [] := by
  constructor
  · intro h
    simp only [ofTokens, except_bind_eq_ok, Prod.exists] at h
    obtain ⟨found, rest, hread, h⟩ := h
    cases rest with
    | nil =>
      obtain rfl : found = type := by simpa using h
      exact @Phrase.ReadWith.reads _ _ _ (.type found) hread
    | cons => simp at h
  · intro h
    have hread : (Phrase.type type).ReadWith (5 * tokens.length + 5) tokens [] :=
      h.readWith (by simp only [Phrase.cost]; omega)
    simp only [Phrase.ReadWith] at hread
    simp only [ofTokens, hread]
    rfl

end HeaderInterop.CType
