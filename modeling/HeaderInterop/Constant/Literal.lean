import HeaderInterop.Text.Numeral
import HeaderInterop.Text.Lines

/-!
Number literals in replacement texts. Enclosing parentheses are dropped, the tokens are joined, and
the type of what is left is read off its spelling.
-/

namespace HeaderInterop.Literal

/-- Whether the group that is open before the tokens is closed by the last of them; `depth` counts
the groups that are open inside it. -/
def closesAtEnd (depth : Nat) : List String → Bool
  | [] => false
  | token :: rest =>
    if token = "(" then closesAtEnd (depth + 1) rest
    else if token = ")" then
      match depth with
      | 0 => rest.isEmpty
      | outer + 1 => closesAtEnd outer rest
    else closesAtEnd depth rest

/-- The tokens inside the pair of parentheses that encloses them all, if one does. -/
def inside? : List String → Option (List String)
  | token :: rest => if token = "(" && closesAtEnd 0 rest then some rest.dropLast else none
  | [] => none

theorem length_inside?_lt {tokens inner : List String} (h : inside? tokens = some inner) :
    inner.length < tokens.length := by
  cases tokens with
  | nil => simp [inside?] at h
  | cons token rest =>
    simp only [inside?] at h
    split at h
    · simp only [Option.some.injEq] at h
      subst h
      rw [List.length_dropLast, List.length_cons]
      omega
    · simp at h

/-- The tokens without the parentheses that enclose them all. -/
def stripParens (tokens : List String) : List String :=
  match h : inside? tokens with
  | some inner =>
    have := length_inside?_lt h
    stripParens inner
  | none => tokens
  termination_by tokens.length

def startsWithDigit (text : List Char) : Bool :=
  text.head?.any Char.isDigit

/-- A number's token, with one `L` in place of two. -/
def shortenSuffix (token : List Char) : List Char :=
  if startsWithDigit token && Text.endsWith ['l', 'l'] (Text.lowerAscii token) then
    token.take (token.length - 2) ++ ['L']
  else token

/-- The tokens without enclosing parentheses, joined. -/
def normalize (tokens : List String) : String :=
  String.ofList ((stripParens tokens).flatMap fun token => shortenSuffix token.toList)

/-- The type of a literal. -/
inductive Kind where
  | int
  | uint
  | long
  | ulong
  | float
  | double
deriving DecidableEq, Repr

def Kind.name : Kind → String
  | int => "int"
  | uint => "uint"
  | long => "long"
  | ulong => "ulong"
  | float => "float"
  | double => "double"

def isHex (value : List Char) : Bool :=
  ['0', 'x'].isPrefixOf value || ['0', 'X'].isPrefixOf value

/-- Starts with a digit, behind a minus sign and a point if they are there. -/
def isNumeric (value : List Char) : Bool :=
  let unsigned := (Text.after? ['-'] value).getD value
  startsWithDigit ((Text.after? ['.'] unsigned).getD unsigned)

def hasShift (value : List Char) : Bool :=
  Text.contains ['<', '<'] value

def kindOfChars? (value : List Char) : Option Kind :=
  let lower := Text.lowerAscii value
  if !isNumeric value then (if hasShift value then some .int else none)
  else if Text.endsWith ['f'] lower && !isHex value then some .float
  else if Text.endsWith ['u', 'l'] lower || Text.endsWith ['l', 'u'] lower then some .ulong
  else if Text.endsWith ['u'] lower then some .uint
  else if Text.endsWith ['l'] lower then some .long
  else if (Text.unsigned? Text.maxUInt32 value).isSome || isHex value then some .uint
  else if (Text.signed? Text.minInt32 Text.maxInt32 value).isSome then some .int
  else if value.contains '.' && Text.isFraction value then some .double
  else if hasShift value then some .int
  else none

/-- The type of a normalized literal; a suffix counts only on a number. -/
def kind? (value : String) : Option Kind :=
  kindOfChars? value.toList

end HeaderInterop.Literal
