import HeaderInterop.Text.Quoted
import HeaderInterop.Text.Numeral
import HeaderInterop.Text.Lines
import HeaderInterop.CType.Basic

/-!
Tokens of a type as the compiler prints it. The tag of an unnamed type is a parenthesised phrase
and is one token; an attribute says nothing about layout and gives no token. `splitGroup` finds the
parenthesis that closes a group and what it leaves over is shorter, which ends the scan.
-/

namespace HeaderInterop.CType

inductive Token where
  | ident (word : String)
  | number (value : Nat)
  | anonymous (phrase : String)
  | star
  | lparen
  | rparen
  | lbracket
  | rbracket
  | comma
  | ellipsis
deriving DecidableEq, Repr

def Token.shown : Token → String
  | ident word => "Ident(" ++ Text.quote word ++ ")"
  | number value => "Number(" ++ toString value ++ ")"
  | anonymous phrase => "Anonymous(" ++ Text.quote phrase ++ ")"
  | star => "Star"
  | lparen => "LParen"
  | rparen => "RParen"
  | lbracket => "LBracket"
  | rbracket => "RBracket"
  | comma => "Comma"
  | ellipsis => "Ellipsis"

/-- Why a text is not a type. -/
inductive Fault where
  | unterminatedAnonymous
  | sizeTooLarge
  | malformedAttribute
  | unterminatedAttribute
  | unexpectedCharacter (c : Char)
  | trailingToken (token : Token)
  | expected (token : Token) (found : Option Token)
  | expectedTag (found : Option Token)
  | missingSpecifier
  | conflictingSpecifiers
  | unsupportedSpecifiers (words : List String)
  | tooDeep
deriving DecidableEq, Repr

def Fault.message : Fault → String
  | unterminatedAnonymous => "unterminated anonymous type"
  | sizeTooLarge => "bad array size: number too large to fit in target type"
  | malformedAttribute => "malformed __attribute__"
  | unterminatedAttribute => "unterminated __attribute__"
  | unexpectedCharacter c => "unexpected character " ++ Text.quoteChar c
  | trailingToken token => "unexpected trailing token " ++ token.shown
  | expected token found =>
    "expected " ++ token.shown ++ ", found " ++ Text.showOption Token.shown found
  | expectedTag found => "expected tag name, found " ++ Text.showOption Token.shown found
  | missingSpecifier => "missing type specifier"
  | conflictingSpecifiers => "conflicting type specifiers"
  | unsupportedSpecifiers words =>
    "unsupported specifiers " ++ Text.showList Text.quote words
  | tooDeep => "nested too deeply"

/-- What stands before and after the parenthesis that closes the group; `depth` counts the groups
that are open inside it. -/
def splitGroup (depth : Nat) : List Char → Option (List Char × List Char)
  | [] => none
  | c :: rest =>
    if c = '(' then
      (splitGroup (depth + 1) rest).map fun (inside, after) => (c :: inside, after)
    else if c = ')' then
      match depth with
      | 0 => some ([], rest)
      | outer + 1 => (splitGroup outer rest).map fun (inside, after) => (c :: inside, after)
    else
      (splitGroup depth rest).map fun (inside, after) => (c :: inside, after)

/-- Nothing is lost: the group, its closing parenthesis and the rest are the text. -/
theorem splitGroup_eq_some {depth : Nat} {text inside after : List Char}
    (h : splitGroup depth text = some (inside, after)) : text = inside ++ ')' :: after := by
  induction text generalizing depth inside after with
  | nil => simp [splitGroup] at h
  | cons c rest ih =>
    unfold splitGroup at h
    split at h
    · simp only [Option.map_eq_some_iff, Prod.mk.injEq, Prod.exists] at h
      obtain ⟨i, a, hs, rfl, rfl⟩ := h
      simp [ih hs]
    · split at h
      · rename_i hc
        split at h
        · simp only [Option.some.injEq, Prod.mk.injEq] at h
          obtain ⟨rfl, rfl⟩ := h
          simp [hc]
        · simp only [Option.map_eq_some_iff, Prod.mk.injEq, Prod.exists] at h
          obtain ⟨i, a, hs, rfl, rfl⟩ := h
          simp [ih hs]
      · simp only [Option.map_eq_some_iff, Prod.mk.injEq, Prod.exists] at h
        obtain ⟨i, a, hs, rfl, rfl⟩ := h
        simp [ih hs]

theorem length_lt_of_splitGroup {depth : Nat} {text inside after : List Char}
    (h : splitGroup depth text = some (inside, after)) : after.length < text.length := by
  rw [splitGroup_eq_some h]
  simp
  omega

/-- The tokens of one character, the opening parenthesis apart. -/
def punctuation? : Char → Option Token
  | '*' => some .star
  | ')' => some .rparen
  | '[' => some .lbracket
  | ']' => some .rbracket
  | ',' => some .comma
  | _ => none

/-- After an opening parenthesis: the phrase of an unnamed type. -/
def opensAnonymous (rest : List Char) : Bool :=
  "unnamed ".toList.isPrefixOf rest || "anonymous ".toList.isPrefixOf rest

def attributeWord : String := "__attribute__"

/-- The tokens of a type text. -/
def tokenize (text : List Char) : Except Fault (List Token) :=
  match text with
  | [] => .ok []
  | c :: rest =>
    if c = ' ' ∨ c = '\t' then tokenize rest
    else if c = '(' then
      if opensAnonymous rest then
        match h : splitGroup 0 rest with
        | none => .error .unterminatedAnonymous
        | some (inside, after) =>
          have := length_lt_of_splitGroup h
          (tokenize after).map (.anonymous (String.ofList inside) :: ·)
      else (tokenize rest).map (.lparen :: ·)
    else if "...".toList.isPrefixOf (c :: rest) then
      (tokenize (rest.drop 2)).map (.ellipsis :: ·)
    else if c.isDigit then
      match Text.unsigned? Text.maxUInt64 (c :: rest.takeWhile Char.isDigit) with
      | none => .error .sizeTooLarge
      | some value =>
        have := (List.dropWhile_sublist Char.isDigit (l := rest)).length_le
        (tokenize (rest.dropWhile Char.isDigit)).map (.number value :: ·)
    else if Text.isNameStart c then
      have := (List.dropWhile_sublist Text.isNamePart (l := rest)).length_le
      let word := String.ofList (c :: rest.takeWhile Text.isNamePart)
      if word = attributeWord then
        match ht : Text.trimStart (rest.dropWhile Text.isNamePart) with
        | '(' :: body =>
          match h : splitGroup 0 body with
          | none => .error .unterminatedAttribute
          | some (_, after) =>
            have := length_lt_of_splitGroup h
            have := Text.length_trimStart_le (rest.dropWhile Text.isNamePart)
            have : body.length < (Text.trimStart (rest.dropWhile Text.isNamePart)).length := by
              simp [ht]
            tokenize after
        | _ => .error .malformedAttribute
      else (tokenize (rest.dropWhile Text.isNamePart)).map (.ident word :: ·)
    else
      match punctuation? c with
      | some token => (tokenize rest).map (token :: ·)
      | none => .error (.unexpectedCharacter c)
  termination_by text.length
  decreasing_by all_goals simp_all; try omega

end HeaderInterop.CType
