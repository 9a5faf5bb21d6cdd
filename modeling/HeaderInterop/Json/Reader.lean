import HeaderInterop.Json.Basic
import HeaderInterop.Text.Numeral

/-!
JSON from text. The grammar is the standard one: no comments, no trailing commas, no leading zeros,
and no control characters in strings. A surrogate that stands alone garbles the string that names
it, or the object with that key, and nothing around them.
-/

namespace HeaderInterop.Json

def isSpace (c : Char) : Bool :=
  c == ' ' || c == '\t' || c == '\n' || c == '\r'

def skipSpace (cs : List Char) : List Char :=
  cs.dropWhile isSpace

def simpleEscape? : Char → Option Char
  | '"' => some '"'
  | '\\' => some '\\'
  | '/' => some '/'
  | 'b' => some '\x08'
  | 'f' => some '\x0c'
  | 'n' => some '\n'
  | 'r' => some '\r'
  | 't' => some '\t'
  | _ => none

/-- The character of a code unit, or of a pair of surrogates; the flag says that the second unit
was used. -/
def unitChar? (unit : Nat) (second : Option Nat) : Option (Char × Bool) :=
  if 0xd800 ≤ unit ∧ unit < 0xdc00 then
    match second with
    | some low =>
      if 0xdc00 ≤ low ∧ low < 0xe000 then
        some (Char.ofNat (0x10000 + (unit - 0xd800) * 0x400 + (low - 0xdc00)), true)
      else none
    | none => none
  else if 0xdc00 ≤ unit ∧ unit < 0xe000 then none
  else some (Char.ofNat unit, false)

/-- The rest of a string after its opening quote, if it is text, and what follows it. `done` holds
the characters read, reversed; `sound` says that no surrogate has stood alone. -/
def stringTail (done : List Char) (sound : Bool) :
    List Char → Option (Option String × List Char)
  | '"' :: rest => some (if sound then some (String.ofList done.reverse) else none, rest)
  | '\\' :: 'u' :: a :: b :: c :: d :: '\\' :: 'u' :: e :: f :: g :: h :: rest =>
    match Text.inBase? 16 [a, b, c, d] with
    | none => none
    | some unit =>
      match unitChar? unit (Text.inBase? 16 [e, f, g, h]) with
      | some (char, true) => stringTail (char :: done) sound rest
      | some (char, false) =>
        stringTail (char :: done) sound ('\\' :: 'u' :: e :: f :: g :: h :: rest)
      | none => stringTail done false ('\\' :: 'u' :: e :: f :: g :: h :: rest)
  | '\\' :: 'u' :: a :: b :: c :: d :: rest =>
    match Text.inBase? 16 [a, b, c, d] with
    | none => none
    | some unit =>
      match unitChar? unit none with
      | some (char, _) => stringTail (char :: done) sound rest
      | none => stringTail done false rest
  | '\\' :: c :: rest =>
    match simpleEscape? c with
    | some char => stringTail (char :: done) sound rest
    | none => none
  | c :: rest => if c.toNat < 0x20 then none else stringTail (c :: done) sound rest
  | [] => none

def digitsOf (cs : List Char) : List Char × List Char :=
  (cs.takeWhile Char.isDigit, cs.dropWhile Char.isDigit)

/-- A number and what follows it. -/
def numberPart? (cs : List Char) : Option (String × List Char) := do
  let (sign, cs) := match cs with
    | '-' :: rest => (['-'], rest)
    | _ => ([], cs)
  let (whole, cs) := digitsOf cs
  guard (!whole.isEmpty && (whole.length == 1 || whole.head? != some '0'))
  let (fraction, cs) ← match cs with
    | '.' :: rest =>
      let (digits, after) := digitsOf rest
      if digits.isEmpty then none else some ('.' :: digits, after)
    | _ => some ([], cs)
  let (exponent, cs) ← match cs with
    | e :: rest =>
      if e == 'e' || e == 'E' then
        let (sign, rest) := match rest with
          | '+' :: rest => (['+'], rest)
          | '-' :: rest => (['-'], rest)
          | _ => ([], rest)
        let (digits, after) := digitsOf rest
        if digits.isEmpty then none else some (e :: sign ++ digits, after)
      else some ([], cs)
    | [] => some ([], cs)
  return (String.ofList (sign ++ whole ++ fraction ++ exponent), cs)

/-- A word that stands for a value. -/
def literal? (cs : List Char) : Option (Json × List Char) :=
  match cs with
  | 'n' :: 'u' :: 'l' :: 'l' :: rest => some (null, rest)
  | 't' :: 'r' :: 'u' :: 'e' :: rest => some (bool true, rest)
  | 'f' :: 'a' :: 'l' :: 's' :: 'e' :: rest => some (bool false, rest)
  | _ => (numberPart? cs).map fun (spelling, rest) => (number spelling, rest)

/-- The string that is the text, if it is one. -/
def ofText (text : Option String) : Json :=
  text.elim garbled string

/-- The object of the members, if their keys are texts. -/
def ofMembers (members : List (Option String × Json)) : Json :=
  let named : Option (List (String × Json)) :=
    members.mapM fun (key, value) => key.map fun key => (key, value)
  named.elim garbled object

mutual

/-- A value and what follows it. -/
def readValue : Nat → List Char → Option (Json × List Char)
  | 0, _ => none
  | fuel + 1, cs =>
    match skipSpace cs with
    | '"' :: rest => (stringTail [] true rest).map fun (text, rest) => (ofText text, rest)
    | '[' :: rest =>
      match skipSpace rest with
      | ']' :: rest => some (array [], rest)
      | rest => (readItems fuel [] rest).map fun (items, rest) => (array items, rest)
    | '\x7b' :: rest =>
      match skipSpace rest with
      | '\x7d' :: rest => some (object [], rest)
      | rest => (readMembers fuel [] rest).map fun (members, rest) => (ofMembers members, rest)
    | rest => literal? rest

/-- The items of an array up to its closing bracket; `done` holds those read, reversed. -/
def readItems : Nat → List Json → List Char → Option (List Json × List Char)
  | 0, _, _ => none
  | fuel + 1, done, cs =>
    match readValue fuel cs with
    | none => none
    | some (item, rest) =>
      match skipSpace rest with
      | ',' :: rest => readItems fuel (item :: done) rest
      | ']' :: rest => some ((item :: done).reverse, rest)
      | _ => none

/-- The members of an object up to its closing brace; `done` holds those read, reversed. -/
def readMembers : Nat → List (Option String × Json) → List Char →
    Option (List (Option String × Json) × List Char)
  | 0, _, _ => none
  | fuel + 1, done, cs =>
    match skipSpace cs with
    | '"' :: rest =>
      match stringTail [] true rest with
      | none => none
      | some (key, rest) =>
        match skipSpace rest with
        | ':' :: rest =>
          match readValue fuel rest with
          | none => none
          | some (value, rest) =>
            match skipSpace rest with
            | ',' :: rest => readMembers fuel ((key, value) :: done) rest
            | '\x7d' :: rest => some (((key, value) :: done).reverse, rest)
            | _ => none
        | _ => none
    | _ => none

end

/-- The value that a text spells, with blanks around it and nothing else. -/
def parse? (text : String) : Option Json :=
  let cs := text.toList
  match readValue (2 * cs.length + 2) cs with
  | some (value, rest) => if (skipSpace rest).isEmpty then some value else none
  | none => none

end HeaderInterop.Json
