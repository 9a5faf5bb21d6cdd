import HeaderInterop.Toml.Basic
import HeaderInterop.Toml.Quoted
import HeaderInterop.Toml.Scalar

/-!
The statements of a TOML document, one a line. Blanks stand around keys, their dots and values;
between the items of arrays, between the members of inline tables and around the equals sign of a
member lines may end, and the last item or member may be followed by a comma. Values nest at most 80
deep, and a key has at most 80 names.
-/

namespace HeaderInterop.Toml

def maxDepth : Nat := 80

def isBareKeyChar (c : Char) : Bool :=
  c.isAlphanum || c == '_' || c == '-'

def isScalarChar (c : Char) : Bool :=
  isBareKeyChar c || c == '+' || c == '.' || c == ':'

/-- One name of a key, bare or quoted. -/
def name? (cs : List Char) : Option (String × List Char) :=
  match cs with
  | '"' :: rest => Quoting.basic.text? rest
  | '\'' :: rest => Quoting.literal.text? rest
  | _ =>
    let name := cs.takeWhile isBareKeyChar
    if name.isEmpty then none
    else some (String.ofList name, cs.dropWhile isBareKeyChar)

/-- The rest of a dotted key of at most so many names; `path` holds the names read, reversed. -/
def keyFrom (path : List String) : Nat → List Char → Option (Key × List Char)
  | 0, _ => none
  | count + 1, cs =>
    match name? (skipGap cs) with
    | none => none
    | some (name, rest) =>
      match skipGap rest with
      | '.' :: rest => keyFrom (name :: path) count rest
      | rest => some (⟨path.reverse, name⟩, rest)

/-- A dotted key and what follows it and the blanks behind it. -/
def key? (cs : List Char) : Option (Key × List Char) :=
  keyFrom [] maxDepth cs

/-- The characters of an unquoted value; a blank may stand between a date and a time. -/
def scalarSpan (cs : List Char) : List Char × List Char :=
  let word := cs.takeWhile isScalarChar
  match cs.dropWhile isScalarChar with
  | ' ' :: c :: rest =>
    if c.isDigit && (date? word).any (·.2.isEmpty) then
      (word ++ ' ' :: (c :: rest).takeWhile isScalarChar, (c :: rest).dropWhile isScalarChar)
    else (word, ' ' :: c :: rest)
  | rest => (word, rest)

def scalarTerm? (cs : List Char) : Option (Term × List Char) :=
  let (word, rest) := scalarSpan cs
  (scalar? word).map fun value => (.scalar value, rest)

mutual

/-- A value and what follows it, at most `depth` containers deep. -/
def readTerm (depth : Nat) : Nat → List Char → Option (Term × List Char)
  | 0, _ => none
  | fuel + 1, cs =>
    match opening? cs with
    | some (quoting, rest) =>
      (quoting.text? rest).map fun (text, rest) => (.scalar (.text text), rest)
    | none =>
      match cs, depth with
      | '[' :: rest, depth + 1 =>
        (readItems depth fuel [] rest).map fun (items, rest) => (.array items, rest)
      | '\x7b' :: rest, depth + 1 =>
        (readMembers depth fuel [] rest).map fun (members, rest) => (.inlineTable members, rest)
      | cs, _ => scalarTerm? cs

/-- The items of an array up to its closing bracket; `done` holds those read, reversed. -/
def readItems (depth : Nat) : Nat → List Term → List Char → Option (List Term × List Char)
  | 0, _, _ => none
  | fuel + 1, done, cs =>
    match skipLines true cs with
    | ']' :: rest => some (done.reverse, rest)
    | rest =>
      match readTerm depth fuel rest with
      | none => none
      | some (item, rest) =>
        match skipLines true rest with
        | ',' :: rest => readItems depth fuel (item :: done) rest
        | ']' :: rest => some ((item :: done).reverse, rest)
        | _ => none

/-- The members of an inline table up to its closing brace; `done` holds those read, reversed. -/
def readMembers (depth : Nat) :
    Nat → List (Key × Term) → List Char → Option (List (Key × Term) × List Char)
  | 0, _, _ => none
  | fuel + 1, done, cs =>
    match skipLines true cs with
    | '\x7d' :: rest => some (done.reverse, rest)
    | rest =>
      match (key? rest).map fun (key, rest) => (key, skipLines true rest) with
      | some (key, '=' :: rest) =>
        match readTerm depth fuel (skipLines true rest) with
        | none => none
        | some (term, rest) =>
          match skipLines true rest with
          | ',' :: rest => readMembers depth fuel ((key, term) :: done) rest
          | '\x7d' :: rest => some (((key, term) :: done).reverse, rest)
          | _ => none
      | _ => none

end

def statement? (cs : List Char) : Option (Statement × List Char) :=
  match cs with
  | '[' :: '[' :: rest =>
    match key? rest with
    | some (key, ']' :: ']' :: rest) => some (.tableItem key, rest)
    | _ => none
  | '[' :: rest =>
    match key? rest with
    | some (key, ']' :: rest) => some (.table key, rest)
    | _ => none
  | _ =>
    match key? cs with
    | some (key, '=' :: rest) =>
      (readTerm maxDepth (2 * rest.length + 2) (skipGap rest)).map fun (term, rest) =>
        (.assign key term, rest)
    | _ => none

/-- What follows a statement and the end of its line; a comment may stand before that. -/
def lineEnd? (cs : List Char) : Option (List Char) :=
  match skipComment (skipGap cs) with
  | [] => some []
  | rest => newline? rest

def readStatements : Nat → List Char → Option (List Statement)
  | 0, _ => none
  | fuel + 1, cs =>
    match skipLines true cs with
    | [] => some []
    | rest =>
      match statement? rest with
      | none => none
      | some (statement, rest) =>
        match lineEnd? rest with
        | none => none
        | some rest => (readStatements fuel rest).map (statement :: ·)

/-- The statements of a document; a byte order mark may precede them. -/
def statements? (text : String) : Option (List Statement) :=
  let cs := match text.toList with
    | '\ufeff' :: rest => rest
    | cs => cs
  readStatements (cs.length + 1) cs

end HeaderInterop.Toml
