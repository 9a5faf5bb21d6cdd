import HeaderInterop.Text.Class

/-!
Preprocessing tokens of a macro's replacement text: string and character literals, numbers, words,
and operators of one or two characters. Every token takes at least one character and leaves the
rest as it was, so the tokens and the blanks between them are the text.
-/

namespace HeaderInterop.Macro

/-- Operators of two characters. -/
def pairs : List (List Char) :=
  ["<<", ">>", "<=", ">=", "==", "!=", "&&", "||", "##", "->", "++", "--"].map String.toList

/-- The rest of a literal up to its closing quote, which a backslash hides, or to the end. -/
def literalTail (close : Char) : List Char → List Char × List Char
  | [] => ([], [])
  | c :: rest =>
    if c = close then ([c], rest)
    else if c = '\\' then
      match rest with
      | [] => ([c], [])
      | d :: rest =>
        let tail := literalTail close rest
        (c :: d :: tail.1, tail.2)
    else
      let tail := literalTail close rest
      (c :: tail.1, tail.2)

def isExponentMark (c : Char) : Bool :=
  c == 'e' || c == 'E' || c == 'p' || c == 'P'

/-- The rest of a number whose last character so far is `last`. A sign belongs to it after an
exponent mark, unless the number is hexadecimal. -/
def numberTail (isHex : Bool) (last : Char) : List Char → List Char × List Char
  | [] => ([], [])
  | c :: rest =>
    if c.isAlphanum || c == '.' || c == '_' || ((c == '+' || c == '-') && isExponentMark last && !isHex)
    then
      let tail := numberTail isHex c rest
      (c :: tail.1, tail.2)
    else ([], c :: rest)

def startsNumber (c : Char) (rest : List Char) : Bool :=
  c.isDigit || (c == '.' && rest.head?.any Char.isDigit)

def startsHex (c : Char) (rest : List Char) : Bool :=
  c == '0' && rest.head?.any fun x => x == 'x' || x == 'X'

/-- What the token that starts with `c` takes of the rest, and what it leaves. -/
def tokenTail (c : Char) (rest : List Char) : List Char × List Char :=
  if c = '"' ∨ c = '\'' then literalTail c rest
  else if startsNumber c rest then numberTail (startsHex c rest) c rest
  else if Text.isWordStart c then (rest.takeWhile Text.isWordPart, rest.dropWhile Text.isWordPart)
  else
    match rest with
    | d :: after => if [c, d] ∈ pairs then ([d], after) else ([], rest)
    | [] => ([], [])

theorem literalTail_append (close : Char) (text : List Char) :
    (literalTail close text).1 ++ (literalTail close text).2 = text := by
  fun_induction literalTail close text <;> simp_all +zetaDelta

theorem numberTail_append (isHex : Bool) (last : Char) (text : List Char) :
    (numberTail isHex last text).1 ++ (numberTail isHex last text).2 = text := by
  fun_induction numberTail isHex last text <;> simp_all +zetaDelta

/-- Nothing is lost or changed. -/
theorem tokenTail_append (c : Char) (rest : List Char) :
    (tokenTail c rest).1 ++ (tokenTail c rest).2 = rest := by
  unfold tokenTail
  split
  · exact literalTail_append c rest
  · split
    · exact numberTail_append _ c rest
    · split
      · simp
      · split
        · split <;> simp
        · simp

theorem length_tokenTail_le (c : Char) (rest : List Char) :
    (tokenTail c rest).2.length ≤ rest.length := by
  have h := congrArg List.length (tokenTail_append c rest)
  simp at h
  omega

def pieces (text : List Char) : List (List Char) :=
  match text with
  | [] => []
  | c :: rest =>
    if Text.isBlank c then pieces rest
    else
      have := length_tokenTail_le c rest
      (c :: (tokenTail c rest).1) :: pieces (tokenTail c rest).2
  termination_by text.length

/-- The tokens of a replacement text. -/
def tokenize (text : String) : List String :=
  (pieces text.toList).map String.ofList

end HeaderInterop.Macro
