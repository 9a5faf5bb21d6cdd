import HeaderInterop.Proofs.CType.NormalForm

/-!
Printed types are read back. A printed type is a declarator with its specifiers in front, so what
is shown of a declarator is said for any type that it is put around, and for any continuation. A
declarator that may still take a suffix (it is empty, or ends in a parenthesis or a suffix) has a
stronger property than one that begins with a star: what follows may be more suffixes. The types
that texts spell are then the normal ones, and each is spelled by its print.
-/

namespace HeaderInterop.CType

def startsWord : List Token → Bool
  | .ident _ :: _ => true
  | _ => false

/-- What may stand behind a type name. -/
def endsType : List Token → Bool
  | [] | .rparen :: _ | .comma :: _ => true
  | _ => false

/-- What may stand where a declarator without leading stars goes on. -/
def continuesPlain : List Token → Bool
  | .star :: _ => false
  | tokens => !opensDeclarator tokens

/-- The tokens are a declarator with these steps. -/
structure IsDeclarator (declarator : List Token) (steps : List Step) : Prop where
  noWord : startsWord declarator = false
  reads : ∀ rest, endsType rest = true → Reads (declarator ++ rest) (.declarator steps) rest

/-- The tokens are a declarator with these steps, and so they are with suffixes behind them. -/
structure TakesSuffix (declarator : List Token) (steps : List Step) : Prop where
  noWord : startsWord declarator = false
  reads : ∀ {tokens suffixes rest}, continuesPlain tokens = true →
    Reads tokens (.suffixes suffixes) rest →
    Reads (declarator ++ tokens) (.declarator (suffixes.reverse ++ steps)) rest

theorem startsWord_append {tokens others : List Token} (h : startsWord tokens = false)
    (h' : startsWord others = false) : startsWord (tokens ++ others) = false := by
  cases tokens with
  | nil => exact h'
  | cons token tokens => cases token <;> first | rfl | simp [startsWord] at h

theorem startsWord_of_endsType {tokens : List Token} (h : endsType tokens = true) :
    startsWord tokens = false := by
  unfold endsType at h
  split at h <;> simp_all [startsWord]

theorem readPointers_of_continuesPlain {tokens : List Token} (h : continuesPlain tokens = true) :
    readPointers tokens = ([], tokens) := by
  unfold readPointers
  split
  · simp [continuesPlain] at h
  · rfl

theorem opensDeclarator_of_continuesPlain {tokens : List Token}
    (h : continuesPlain tokens = true) : opensDeclarator tokens = false := by
  unfold continuesPlain at h
  split at h <;> simp_all

theorem TakesSuffix.nil : TakesSuffix [] [] where
  noWord := rfl
  reads := by
    intro tokens suffixes rest hplain hread
    simpa using Reads.plain (readPointers_of_continuesPlain hplain)
      (opensDeclarator_of_continuesPlain hplain) hread

theorem TakesSuffix.isDeclarator {declarator : List Token} {steps : List Step}
    (h : TakesSuffix declarator steps) : IsDeclarator declarator steps where
  noWord := h.noWord
  reads := by
    intro rest hrest
    have hplain : continuesPlain rest = true := by
      unfold endsType at hrest
      split at hrest <;> simp_all [continuesPlain, opensDeclarator]
    have hstops : opensSuffix rest = false := by
      unfold endsType at hrest
      split at hrest <;> simp_all [opensSuffix]
    exact h.reads hplain (.stop hstops)

/-- A declarator that begins with a star takes suffixes once it is in parentheses. -/
theorem IsDeclarator.parenthesised {declarator : List Token} {steps : List Step}
    (h : IsDeclarator (.star :: declarator) steps) :
    TakesSuffix (.lparen :: (.star :: declarator) ++ [.rparen]) steps where
  noWord := rfl
  reads := by
    intro tokens suffixes rest _ hread
    have hgroup := h.reads (.rparen :: tokens) rfl
    have hhead : readPointers (.lparen :: (.star :: declarator ++ .rparen :: tokens)) =
        ([], .lparen :: (.star :: declarator ++ .rparen :: tokens)) := by simp [readPointers]
    simpa using Reads.grouped hhead rfl hgroup hread

/-- A suffix behind a declarator applies before the steps of the declarator. -/
theorem TakesSuffix.append {declarator suffix : List Token} {steps : List Step} {step : Step}
    (h : TakesSuffix declarator steps) (hword : startsWord suffix = false)
    (hplain : ∀ tokens, continuesPlain (suffix ++ tokens) = true)
    (hsuffix : ∀ {tokens suffixes rest}, Reads tokens (.suffixes suffixes) rest →
      Reads (suffix ++ tokens) (.suffixes (step :: suffixes)) rest) :
    TakesSuffix (declarator ++ suffix) (step :: steps) where
  noWord := startsWord_append h.noWord hword
  reads := by
    intro tokens suffixes rest _ hread
    simpa using h.reads (hplain tokens) (hsuffix hread)

theorem Reads.pointer {tokens mid rest : List Token} {steps : List Step}
    {isConst isVolatile : Bool} (h : Reads mid (.declarator steps) rest)
    (hquals : readQualifiers false false tokens = (isConst, isVolatile, mid)) :
    Reads (.star :: tokens) (.declarator (.pointer :: qualifySteps isConst isVolatile ++ steps))
      rest := by
  have hstar : readPointers (.star :: tokens) =
      (.pointer :: qualifySteps isConst isVolatile ++ (readPointers mid).1,
        (readPointers mid).2) := by
    rw [readPointers]
    simp [hquals]
  cases h with
  | plain head hplain tail =>
    rw [head] at hstar
    simpa using Reads.plain hstar hplain tail
  | grouped head hopens group tail =>
    rw [head] at hstar
    simpa using Reads.grouped hstar hopens group tail

/-- A star in front, with its qualifiers, applies before the steps of the declarator. -/
theorem IsDeclarator.pointer {declarator words : List Token} {steps : List Step}
    {isConst isVolatile : Bool} (h : IsDeclarator declarator steps)
    (hwords : ∀ {tokens}, startsWord tokens = false →
      readQualifiers false false (words ++ tokens) = (isConst, isVolatile, tokens)) :
    IsDeclarator (.star :: (words ++ declarator))
      (.pointer :: qualifySteps isConst isVolatile ++ steps) where
  noWord := rfl
  reads := by
    intro rest hrest
    have hword := startsWord_append h.noWord (startsWord_of_endsType hrest)
    exact Reads.pointer (h.reads rest hrest) (by simpa using hwords hword)

theorem readQualifiers_stop {tokens : List Token} (h : startsWord tokens = false)
    (isConst isVolatile : Bool) :
    readQualifiers isConst isVolatile tokens = (isConst, isVolatile, tokens) := by
  unfold readQualifiers
  split
  · simp [startsWord] at h
  · rfl

theorem readQualifiers_words (qualifier : Qualifier) {tokens : List Token}
    (h : startsWord tokens = false) :
    readQualifiers false false (wordTokens qualifier.words ++ tokens) =
      (qualifier.isConst, qualifier.isVolatile, tokens) := by
  have hconst : Word.of "const" = .const := by decide
  have hvolatile : Word.of "volatile" = .volatile := by decide
  cases qualifier <;>
    simp [Qualifier.words, wordTokens, readQualifiers, hconst, hvolatile, readQualifiers_stop h,
      Qualifier.isConst, Qualifier.isVolatile]

/-! Specifiers -/

theorem readSpecifiers_stop {tokens : List Token} (h : startsWord tokens = false)
    (found : Specifiers) : readSpecifiers found tokens = .ok (found, tokens) := by
  unfold readSpecifiers
  split
  · simp [startsWord] at h
  · rfl

theorem readSpecifiers_builtin {words : List String} (h : ∀ word ∈ words, Word.of word = .builtin)
    (found : Specifiers) (tokens : List Token) :
    readSpecifiers found (wordTokens words ++ tokens) =
      readSpecifiers { found with words := found.words ++ words } tokens := by
  induction words generalizing found with
  | nil => simp [wordTokens]
  | cons word words ih =>
    have hword := h word (by simp)
    have hwords := ih (fun w hw => h w (by simp [hw])) { found with words := found.words ++ [word] }
    simpa [wordTokens, readSpecifiers, hword] using hwords

theorem readSpecifiers_qualifier (qualifier : Qualifier) (tokens : List Token) :
    readSpecifiers {} (wordTokens qualifier.words ++ tokens) =
      readSpecifiers { isConst := qualifier.isConst, isVolatile := qualifier.isVolatile }
        tokens := by
  have hconst : Word.of "const" = .const := by decide
  have hvolatile : Word.of "volatile" = .volatile := by decide
  cases qualifier <;>
    simp [Qualifier.words, wordTokens, readSpecifiers, hconst, hvolatile, Qualifier.isConst,
      Qualifier.isVolatile]

theorem words_builtin (kind : Primitive) :
    kind.words ≠ [] ∧ ∀ word ∈ kind.words, Word.of word = .builtin := by
  cases kind <;> decide

theorem readSpecifiers_tag {keyword : String} {kind : TagKind} (h : Word.of keyword = .tag kind)
    (found : Specifiers) (name : Option String) (tokens : List Token) :
    readSpecifiers found (tagTokens keyword name ++ tokens) =
      readSpecifiers { found with base := some (kind.type name) } tokens := by
  cases name <;> simp [tagTokens, readSpecifiers, h, tagName?]

/-- A type that is written with specifiers alone. -/
def isBase : CType → Bool
  | primitive _ | enum _ | typedef _ | record .. => true
  | _ => false

theorem readSpecifiers_base {type : CType} (hbase : type.isBase = true)
    (hnormal : type.isNormal = true) {tokens : List Token} (htokens : startsWord tokens = false)
    (isConst isVolatile : Bool) :
    ∃ found, readSpecifiers { isConst, isVolatile } (type.declared tokens) = .ok (found, tokens) ∧
      found.type = .ok (qualify isConst isVolatile type) := by
  cases type with
  | primitive kind =>
    obtain ⟨hne, hbuiltin⟩ := words_builtin kind
    refine ⟨{ isConst, isVolatile, words := kind.words }, ?_, ?_⟩
    · rw [declared, readSpecifiers_builtin hbuiltin, readSpecifiers_stop htokens]
      simp
    · unfold Specifiers.type
      split <;> simp_all [primitive?_words]
  | enum name =>
    refine ⟨{ isConst, isVolatile, base := some (.enum name) }, ?_, rfl⟩
    have hword : Word.of "enum" = .tag .enum := by decide
    rw [declared, readSpecifiers_tag hword, readSpecifiers_stop htokens]
    rfl
  | record kind name =>
    refine ⟨{ isConst, isVolatile, base := some (.record kind name) }, ?_, rfl⟩
    have hword : Word.of kind.tag = .tag (.record kind) := by cases kind <;> decide
    rw [declared, readSpecifiers_tag hword, readSpecifiers_stop htokens]
    rfl
  | typedef name =>
    refine ⟨{ isConst, isVolatile, base := some (.typedef name) }, ?_, rfl⟩
    have hword : Word.of name = .name := by
      simp only [isNormal, isTypedefName, Bool.and_eq_true, beq_iff_eq] at hnormal
      exact hnormal.2
    simp [declared, readSpecifiers, hword, readSpecifiers_stop htokens]
  | _ => simp [isBase] at hbase

theorem declared_append {type : CType} (hbase : type.isBase = true)
    (declarator rest : List Token) :
    type.declared declarator ++ rest = type.declared (declarator ++ rest) := by
  cases type <;> simp_all [isBase, declared]

theorem qualify_flags (qualifier : Qualifier) (type : CType) :
    qualify qualifier.isConst qualifier.isVolatile type = .qualified qualifier type := by
  simp [qualify, Qualifier.ofFlags?_flags]

section Base

variable {type : CType} {declarator rest : List Token} {steps : List Step}
  (hbase : type.isBase = true) (hnormal : type.isNormal = true)
  (hdeclarator : IsDeclarator declarator steps) (hrest : endsType rest = true)
include hbase hnormal hdeclarator hrest

theorem reads_base :
    Reads (type.declared declarator ++ rest) (.type (applySteps steps type)) rest := by
  have hword := startsWord_append hdeclarator.noWord (startsWord_of_endsType hrest)
  obtain ⟨found, hread, htype⟩ := readSpecifiers_base hbase hnormal hword false false
  refine Reads.type ?_ (hdeclarator.reads rest hrest)
  rw [declared_append hbase]
  simp only [specified, hread, bind, Except.bind, htype]
  rfl

theorem reads_qualified_base (qualifier : Qualifier) :
    Reads (wordTokens qualifier.words ++ type.declared declarator ++ rest)
      (.type (applySteps steps (.qualified qualifier type))) rest := by
  have hword := startsWord_append hdeclarator.noWord (startsWord_of_endsType hrest)
  obtain ⟨found, hread, htype⟩ :=
    readSpecifiers_base hbase hnormal hword qualifier.isConst qualifier.isVolatile
  refine Reads.type ?_ (hdeclarator.reads rest hrest)
  rw [List.append_assoc, declared_append hbase]
  simp only [specified, readSpecifiers_qualifier, hread, bind, Except.bind, htype, qualify_flags]
  rfl

end Base

/-! Types -/

/-- A declarator that may be put around the type: a suffix of the type goes on behind it. -/
def Fits (type : CType) (declarator : List Token) (steps : List Step) : Prop :=
  if type.hasSuffix then TakesSuffix declarator steps else IsDeclarator declarator steps

theorem TakesSuffix.fits {type : CType} {declarator : List Token} {steps : List Step}
    (h : TakesSuffix declarator steps) : Fits type declarator steps := by
  unfold Fits
  split
  · exact h
  · exact h.isDeclarator

/-- The declarator of a pointer fits the pointee. -/
theorem IsDeclarator.fits_pointerTokens {pointee : CType} {declarator : List Token}
    {steps : List Step} (h : IsDeclarator (.star :: declarator) steps) :
    Fits pointee (pointerTokens pointee (.star :: declarator)) steps := by
  unfold Fits pointerTokens
  split
  · exact h.parenthesised
  · exact h

theorem TakesSuffix.array {declarator : List Token} {steps : List Step}
    (h : TakesSuffix declarator steps) (size : Option Nat) :
    TakesSuffix (declarator ++ .lbracket :: (size.toList.map .number ++ [.rbracket]))
      (.array size :: steps) := by
  refine h.append rfl (fun tokens => rfl) ?_
  intro tokens suffixes rest hread
  cases size with
  | none => exact .unsized hread
  | some size => exact .sized hread

theorem dropVoid_of_not_isLoneVoid {params : List CType} (h : isLoneVoid params = false) :
    dropVoid params = params := by
  unfold dropVoid
  split
  · simp [isLoneVoid] at h
  · rfl

/-- A parameter list does not look like a parenthesised declarator. -/
theorem opensDeclarator_params {tokens rest : List Token} {params : List CType} {variadic : Bool}
    (h : Reads tokens (.params params variadic) rest) :
    opensDeclarator (.lparen :: tokens) = false := by
  obtain ⟨token, tail, rfl, rfl | ⟨word, rfl⟩⟩ := h.params_head <;> rfl

theorem TakesSuffix.noParams {declarator : List Token} {steps : List Step}
    (h : TakesSuffix declarator steps) :
    TakesSuffix (declarator ++ [.lparen, .rparen]) (.function [] false :: steps) :=
  h.append rfl (fun _ => rfl) fun hread => .noParams hread

theorem TakesSuffix.someParams {declarator tokens : List Token} {steps : List Step}
    {params : List CType} {variadic : Bool} (h : TakesSuffix declarator steps)
    (hlist : ∀ rest, Reads (tokens ++ .rparen :: rest) (.params params variadic) rest)
    (hvoid : isLoneVoid params = false) :
    TakesSuffix (declarator ++ .lparen :: (tokens ++ [.rparen]))
      (.function params variadic :: steps) := by
  refine h.append rfl ?_ ?_
  · intro rest
    have hopens := opensDeclarator_params (hlist rest)
    simpa [continuesPlain] using hopens
  · intro rest suffixes rest' hread
    have hsuffix := Reads.someParams (hlist rest) hread
    rw [dropVoid_of_not_isLoneVoid hvoid] at hsuffix
    simpa using hsuffix

theorem normal_inner {qualifier : Qualifier} {inner : CType}
    (h : (qualified qualifier inner).isNormal = true) : inner.isNormal = true :=
  (Bool.and_eq_true_iff.mp h).2

mutual

theorem reads_declared (type : CType) {declarator rest : List Token} {steps : List Step}
    (hnormal : type.isNormal = true) (hfits : Fits type declarator steps)
    (hrest : endsType rest = true) :
    Reads (type.declared declarator ++ rest) (.type (applySteps steps type)) rest := by
  match type with
  | .primitive kind => exact reads_base rfl hnormal hfits hrest
  | .enum name => exact reads_base rfl hnormal hfits hrest
  | .typedef name => exact reads_base rfl hnormal hfits hrest
  | .record kind name => exact reads_base rfl hnormal hfits hrest
  | .pointer pointee =>
    have hstar : IsDeclarator (.star :: ([] ++ declarator))
        (.pointer :: qualifySteps false false ++ steps) :=
      IsDeclarator.pointer hfits fun h => readQualifiers_stop h _ _
    simp only [isNormal] at hnormal
    rw [declared]
    exact reads_declared pointee hnormal hstar.fits_pointerTokens hrest
  | .qualified qualifier (.pointer pointee) =>
    have hstar := IsDeclarator.pointer hfits fun h => readQualifiers_words qualifier h
    rw [qualifySteps, Qualifier.ofFlags?_flags] at hstar
    simp only [isNormal, isQualifiable, Bool.true_and] at hnormal
    rw [declared]
    exact reads_declared pointee hnormal hstar.fits_pointerTokens hrest
  | .qualified qualifier (.primitive kind) =>
    exact reads_qualified_base rfl rfl hfits hrest qualifier
  | .qualified qualifier (.enum name) =>
    exact reads_qualified_base rfl (normal_inner hnormal) hfits hrest qualifier
  | .qualified qualifier (.typedef name) =>
    exact reads_qualified_base rfl (normal_inner hnormal) hfits hrest qualifier
  | .qualified qualifier (.record kind name) =>
    exact reads_qualified_base rfl (normal_inner hnormal) hfits hrest qualifier
  | .qualified _ (.qualified ..) | .qualified _ (.array ..) | .qualified _ (.function ..) =>
    simp [isNormal, isQualifiable] at hnormal
  | .array element size =>
    simp only [isNormal, Bool.and_eq_true] at hnormal
    have htakes : TakesSuffix declarator steps := hfits
    rw [declared]
    exact reads_declared element hnormal.1 (htakes.array size).fits hrest
  | .function ret params variadic =>
    simp only [isNormal, Bool.and_eq_true, Bool.not_eq_true'] at hnormal
    obtain ⟨⟨hret, hvoid⟩, hparams⟩ := hnormal
    have htakes : TakesSuffix declarator steps := hfits
    have hsuffix : TakesSuffix
        (declarator ++ .lparen :: (listTokens variadic (paramTokens params) ++ [.rparen]))
        (.function params variadic :: steps) := by
      by_cases hsome : params ≠ [] ∨ variadic = true
      · exact htakes.someParams (reads_params params hparams hsome) hvoid
      · obtain ⟨rfl, rfl⟩ : params = [] ∧ variadic = false := by simpa using hsome
        exact htakes.noParams
    rw [declared]
    exact reads_declared ret hret hsuffix.fits hrest

theorem reads_params (params : List CType) {variadic : Bool} (hnormal : allNormal params = true)
    (hsome : params ≠ [] ∨ variadic = true) (rest : List Token) :
    Reads (listTokens variadic (paramTokens params) ++ .rparen :: rest) (.params params variadic)
      rest := by
  match params with
  | [] =>
    obtain rfl : variadic = true := by simpa using hsome
    exact .lastDots
  | [type] =>
    simp only [allNormal, Bool.and_true] at hnormal
    have hread {rest : List Token} (hrest : endsType rest = true) :
        Reads (type.declared [] ++ rest) (.type type) rest :=
      reads_declared type hnormal TakesSuffix.nil.fits hrest
    cases variadic with
    | false => simpa [paramTokens, listTokens] using Reads.lastParam (hread rfl)
    | true =>
      have hdots : endsType (.comma :: .ellipsis :: .rparen :: rest) = true := rfl
      simpa [paramTokens, listTokens] using Reads.param (hread hdots) .lastDots
  | type :: next :: others =>
    rw [allNormal, Bool.and_eq_true] at hnormal
    have htail : Reads (listTokens variadic (paramTokens (next :: others)) ++ .rparen :: rest)
        (.params (next :: others) variadic) rest :=
      reads_params (next :: others) hnormal.2 (by simp) rest
    have hhead : Reads (type.declared [] ++ .comma ::
        (listTokens variadic (paramTokens (next :: others)) ++ .rparen :: rest)) (.type type)
        (.comma :: (listTokens variadic (paramTokens (next :: others)) ++ .rparen :: rest)) :=
      reads_declared type hnormal.1 TakesSuffix.nil.fits rfl
    simpa [paramTokens, listTokens] using Reads.param hhead htail

end

/-! Texts -/

theorem wordTokens_plain {words : List String} (h : words.all isTagName = true) :
    (wordTokens words).all Token.isPlain = true := by
  simpa [wordTokens, Function.comp_def, Token.isPlain, Token.isProper] using h

theorem tagTokens_plain {keyword : String}
    (hkeyword : keyword ∈ ["struct", "union", "class", "enum"]) {name : Option String}
    (hname : name.all isTagName = true) : (tagTokens keyword name).all Token.isPlain = true := by
  simp only [List.mem_cons, List.not_mem_nil, or_false] at hkeyword
  cases name with
  | some name =>
    have hword : isTagName keyword = true := by
      rcases hkeyword with rfl | rfl | rfl | rfl <;> decide
    simpa [tagTokens, Token.isPlain, Token.isProper, hword] using hname
  | none => rcases hkeyword with rfl | rfl | rfl | rfl <;> decide

theorem pointerTokens_plain {pointee : CType} {declarator : List Token}
    (h : declarator.all Token.isPlain = true) :
    (pointerTokens pointee declarator).all Token.isPlain = true := by
  unfold pointerTokens
  split
  · simpa [Token.isPlain, Token.isProper] using h
  · exact h

theorem listTokens_plain {variadic : Bool} {params : List (List Token)}
    (h : ∀ param ∈ params, param.all Token.isPlain = true) :
    (listTokens variadic params).all Token.isPlain = true := by
  fun_induction listTokens variadic params with
  | case1 => rfl
  | case2 => rfl
  | case3 param =>
    have hparam := h param (by simp)
    split <;> simp_all [Token.isPlain, Token.isProper]
  | case4 param rest _ ih =>
    have hparam := h param (by simp)
    have hrest := ih fun tokens ht => h tokens (by simp [ht])
    rw [List.all_append, List.all_cons, hparam, hrest]
    rfl

theorem qualifierWords_names (qualifier : Qualifier) : qualifier.words.all isTagName = true := by
  cases qualifier <;> decide

theorem qualified_plain {qualifier : Qualifier} {inner : CType} {declarator : List Token}
    (hbase : inner.isBase = true) (h : (inner.declared declarator).all Token.isPlain = true) :
    ((qualified qualifier inner).declared declarator).all Token.isPlain = true := by
  have hdeclared : (qualified qualifier inner).declared declarator =
      wordTokens qualifier.words ++ inner.declared declarator := by
    cases inner <;> first | rfl | simp [isBase] at hbase
  rw [hdeclared, List.all_append, wordTokens_plain (qualifierWords_names qualifier), h]
  rfl

mutual

theorem declared_plain (type : CType) (hnormal : type.isNormal = true) {declarator : List Token}
    (h : declarator.all Token.isPlain = true) :
    (type.declared declarator).all Token.isPlain = true := by
  match type with
  | .primitive kind =>
    have hwords : kind.words.all isTagName = true := by cases kind <;> decide
    rw [declared, List.all_append, wordTokens_plain hwords, h]
    rfl
  | .enum name =>
    rw [declared, List.all_append, tagTokens_plain (by simp) hnormal, h]
    rfl
  | .record kind name =>
    have hkeyword : kind.tag ∈ ["struct", "union", "class", "enum"] := by cases kind <;> decide
    rw [declared, List.all_append, tagTokens_plain hkeyword hnormal, h]
    rfl
  | .typedef name =>
    have hname : (Token.ident name).isPlain = true :=
      (Bool.and_eq_true_iff.mp (show (isTagName name && _) = true from hnormal)).1
    rw [declared, List.all_cons, hname, h]
    rfl
  | .pointer pointee =>
    rw [declared]
    have hstar : (Token.star :: declarator).all Token.isPlain = true := h
    exact declared_plain pointee hnormal (pointerTokens_plain hstar)
  | .qualified qualifier (.pointer pointee) =>
    have hstar : (Token.star :: (wordTokens qualifier.words ++ declarator)).all Token.isPlain
        = true := by
      rw [List.all_cons, List.all_append, wordTokens_plain (qualifierWords_names qualifier), h]
      rfl
    rw [declared]
    have hpointee : (CType.pointer pointee).isNormal = true := normal_inner hnormal
    exact declared_plain pointee hpointee (pointerTokens_plain hstar)
  | .qualified qualifier (.primitive kind) =>
    exact qualified_plain rfl (declared_plain (.primitive kind) rfl h)
  | .qualified qualifier (.enum name) =>
    exact qualified_plain rfl (declared_plain (.enum name) (normal_inner hnormal) h)
  | .qualified qualifier (.typedef name) =>
    exact qualified_plain rfl (declared_plain (.typedef name) (normal_inner hnormal) h)
  | .qualified qualifier (.record kind name) =>
    exact qualified_plain rfl (declared_plain (.record kind name) (normal_inner hnormal) h)
  | .qualified _ (.qualified ..) | .qualified _ (.array ..) | .qualified _ (.function ..) =>
    simp [isNormal, isQualifiable] at hnormal
  | .array element size =>
    simp only [isNormal, Bool.and_eq_true] at hnormal
    have hsize : (size.toList.map Token.number).all Token.isPlain = true := by
      cases size <;> simp_all [Token.isPlain, Token.isProper]
    rw [declared]
    refine declared_plain element hnormal.1 ?_
    rw [List.all_append, List.all_cons, List.all_append, h, hsize]
    rfl
  | .function ret params variadic =>
    simp only [isNormal, Bool.and_eq_true] at hnormal
    rw [declared]
    refine declared_plain ret hnormal.1.1 ?_
    rw [List.all_append, List.all_cons, List.all_append, h,
      listTokens_plain (paramTokens_plain params hnormal.2)]
    rfl

theorem paramTokens_plain (params : List CType) (hnormal : allNormal params = true) :
    ∀ tokens ∈ paramTokens params, tokens.all Token.isPlain = true := by
  match params with
  | [] => simp [paramTokens]
  | type :: rest =>
    simp only [allNormal, Bool.and_eq_true] at hnormal
    rw [paramTokens]
    exact List.forall_mem_cons.mpr
      ⟨declared_plain type hnormal.1 rfl, paramTokens_plain rest hnormal.2⟩

end

theorem parse_print {type : CType} (h : type.isNormal = true) : parse type.print = .ok type := by
  have hplain : (type.declared []).all Token.isPlain = true := declared_plain type h rfl
  have htokens : tokenize type.print.toList = .ok (type.declared []) := tokenize_spaced hplain
  have hread : Reads (type.declared [] ++ []) (.type type) [] :=
    reads_declared type h TakesSuffix.nil.fits rfl
  exact parse_eq_ok_iff.mpr ⟨_, htokens, by simpa using hread⟩

/-- The types that texts spell are the normal ones, and a type is normal exactly when its print is
read back. -/
theorem isNormal_iff_parse (type : CType) :
    ((∃ text, parse text = .ok type) ↔ type.isNormal = true) ∧
      (parse type.print = .ok type ↔ type.isNormal = true) :=
  ⟨⟨fun ⟨_, h⟩ => normal_of_parse h, fun h => ⟨_, parse_print h⟩⟩, normal_of_parse, parse_print⟩

end HeaderInterop.CType
