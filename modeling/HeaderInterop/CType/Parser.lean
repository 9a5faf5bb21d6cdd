import HeaderInterop.CType.Word

/-!
Types from their printed form: specifiers first, then an abstract declarator, read from the inside
out. A declarator is kept as the list of its steps in the order in which they apply: the leading
pointers, the array and function suffixes from the last to the first, then the steps of the
parenthesised declarator. Declarators, parameters and type names call each other; each call takes
one unit of fuel, and `parse` gives five for every token, which no type uses up.
-/

namespace HeaderInterop.CType

/-- What the specifiers read so far say. -/
structure Specifiers where
  isConst : Bool := false
  isVolatile : Bool := false
  words : List String := []
  base : Option CType := none
deriving Repr

/-- The type with its qualifier, if the flags give one. -/
def qualify (isConst isVolatile : Bool) (type : CType) : CType :=
  match Qualifier.ofFlags? isConst isVolatile with
  | some qualifier => .qualified qualifier type
  | none => type

/-- The tag that stands at the head of the tokens: `some none` for the phrase of an unnamed type. -/
def tagName? : Token → Option (Option String)
  | .ident name => some (some name)
  | .anonymous _ => some none
  | _ => none

/-- Reads specifiers until a token that is none, or a second name. -/
def readSpecifiers (found : Specifiers) : List Token → Except Fault (Specifiers × List Token)
  | .ident word :: rest =>
    match Word.of word with
    | .const => readSpecifiers { found with isConst := true } rest
    | .volatile => readSpecifiers { found with isVolatile := true } rest
    | .ignored => readSpecifiers found rest
    | .tag kind =>
      match rest with
      | [] => .error (.expectedTag none)
      | token :: rest =>
        match tagName? token with
        | some name => readSpecifiers { found with base := some (kind.type name) } rest
        | none => .error (.expectedTag (some token))
    | .builtin => readSpecifiers { found with words := found.words ++ [word] } rest
    | .name =>
      if found.base.isNone && found.words.isEmpty then
        readSpecifiers { found with base := some (.typedef word) } rest
      else .ok (found, .ident word :: rest)
  | tokens => .ok (found, tokens)

/-- The type that the specifiers describe. -/
def Specifiers.type (found : Specifiers) : Except Fault CType :=
  match found.base, found.words with
  | some base, [] => .ok (qualify found.isConst found.isVolatile base)
  | none, [] => .error .missingSpecifier
  | some _, _ :: _ => .error .conflictingSpecifiers
  | none, words =>
    match primitive? words with
    | some kind => .ok (qualify found.isConst found.isVolatile (.primitive kind))
    | none => .error (.unsupportedSpecifiers words)

def specified (tokens : List Token) : Except Fault (CType × List Token) := do
  let (found, rest) ← readSpecifiers {} tokens
  let type ← found.type
  return (type, rest)

/-- One step of a declarator, applied to the type built so far. -/
inductive Step where
  | pointer
  | qualify (qualifier : Qualifier)
  | array (size : Option Nat)
  | function (params : List CType) (variadic : Bool)
deriving Repr

def Step.apply : Step → CType → CType
  | pointer, type => .pointer type
  | qualify qualifier, type => .qualified qualifier type
  | array size, type => .array type size
  | function params variadic, type => .function type params variadic

def applySteps (steps : List Step) (type : CType) : CType :=
  steps.foldl (fun type step => step.apply type) type

/-- The qualifying step of a pointer whose qualifiers have been read. -/
def qualifySteps (isConst isVolatile : Bool) : List Step :=
  (Qualifier.ofFlags? isConst isVolatile).toList.map .qualify

/-- The qualifiers after a star. -/
def readQualifiers (isConst isVolatile : Bool) : List Token → Bool × Bool × List Token
  | .ident word :: rest =>
    match Word.of word with
    | .const => readQualifiers true isVolatile rest
    | .volatile => readQualifiers isConst true rest
    | .ignored => readQualifiers isConst isVolatile rest
    | _ => (isConst, isVolatile, .ident word :: rest)
  | tokens => (isConst, isVolatile, tokens)

theorem length_readQualifiers_le (isConst isVolatile : Bool) (tokens : List Token) :
    (readQualifiers isConst isVolatile tokens).2.2.length ≤ tokens.length := by
  induction tokens generalizing isConst isVolatile with
  | nil => simp [readQualifiers]
  | cons token rest ih =>
    cases token <;> simp only [readQualifiers, Nat.le_refl]
    split <;> first | exact Nat.le_succ_of_le (ih _ _) | simp

/-- Stars, each with the qualifiers behind it. -/
def readPointers (tokens : List Token) : List Step × List Token :=
  match tokens with
  | .star :: rest =>
    let flags := readQualifiers false false rest
    let more := readPointers flags.2.2
    (.pointer :: qualifySteps flags.1 flags.2.1 ++ more.1, more.2)
  | tokens => ([], tokens)
  termination_by tokens.length
  decreasing_by exact Nat.lt_succ_of_le (length_readQualifiers_le _ _ _)

/-- A parenthesis that opens a declarator; any other opens a parameter list. -/
def opensDeclarator : List Token → Bool
  | .lparen :: .star :: _ | .lparen :: .lparen :: _ | .lparen :: .lbracket :: _ => true
  | _ => false

def expect (token : Token) : List Token → Except Fault (List Token)
  | [] => .error (.expected token none)
  | found :: rest => if found = token then .ok rest else .error (.expected token (some found))

/-- A lone unqualified `void` stands for no parameters. -/
def dropVoid : List CType → List CType
  | [.primitive .void] => []
  | params => params

mutual

def typeName : Nat → List Token → Except Fault (CType × List Token)
  | 0, _ => .error .tooDeep
  | fuel + 1, tokens => do
    let (base, rest) ← specified tokens
    let (steps, rest) ← declarator fuel rest
    return (applySteps steps base, rest)

def declarator : Nat → List Token → Except Fault (List Step × List Token)
  | 0, _ => .error .tooDeep
  | fuel + 1, tokens => do
    let (pointers, rest) := readPointers tokens
    let (nested, rest) ←
      if opensDeclarator rest then do
        let (nested, rest) ← declarator fuel rest.tail
        let rest ← expect .rparen rest
        pure (nested, rest)
      else pure ([], rest)
    let (suffixes, rest) ← declaratorSuffixes fuel rest
    return (pointers ++ suffixes.reverse ++ nested, rest)

/-- Array and function suffixes, in the order in which they are written. -/
def declaratorSuffixes : Nat → List Token → Except Fault (List Step × List Token)
  | 0, _ => .error .tooDeep
  | fuel + 1, tokens =>
    match tokens with
    | .lbracket :: .number size :: rest => do
      let rest ← expect .rbracket rest
      let (steps, rest) ← declaratorSuffixes fuel rest
      return (.array (some size) :: steps, rest)
    | .lbracket :: rest => do
      let rest ← expect .rbracket rest
      let (steps, rest) ← declaratorSuffixes fuel rest
      return (.array none :: steps, rest)
    | .lparen :: .rparen :: rest => do
      let (steps, rest) ← declaratorSuffixes fuel rest
      return (.function [] false :: steps, rest)
    | .lparen :: rest => do
      let (params, variadic, rest) ← parameters fuel rest
      let (steps, rest) ← declaratorSuffixes fuel rest
      return (.function (dropVoid params) variadic :: steps, rest)
    | _ => return ([], tokens)

/-- A list of parameters and ellipses up to its closing parenthesis. -/
def parameters : Nat → List Token → Except Fault (List CType × Bool × List Token)
  | 0, _ => .error .tooDeep
  | fuel + 1, tokens => do
    let (first, dots, rest) ←
      match tokens with
      | .ellipsis :: rest => pure ([], true, rest)
      | _ => do
        let (type, rest) ← typeName fuel tokens
        pure ([type], false, rest)
    match rest with
    | .comma :: rest => do
      let (params, variadic, rest) ← parameters fuel rest
      return (first ++ params, dots || variadic, rest)
    | _ => do
      let rest ← expect .rparen rest
      return (first, dots, rest)

end

/-- The type that the tokens spell, all of them. -/
def ofTokens (tokens : List Token) : Except Fault CType := do
  let (type, rest) ← typeName (5 * tokens.length + 5) tokens
  match rest with
  | [] => return type
  | token :: _ => .error (.trailingToken token)

/-- A text that is not a type, and why. -/
structure ParseFailure where
  text : String
  fault : Fault
deriving DecidableEq, Repr

def ParseFailure.message (failure : ParseFailure) : String :=
  "cannot parse type " ++ Text.quote failure.text ++ ": " ++ failure.fault.message

/-- The type that a text spells. -/
def parse (text : String) : Except ParseFailure CType :=
  ((tokenize text.toList).bind ofTokens).mapError (ParseFailure.mk text)

end HeaderInterop.CType
