/-!
Values of the JSON data format. An object keeps its members in the order in which they were
written, repeated keys included, and a number keeps its spelling. Escapes in a string may name a
surrogate that stands alone; such a string is no text, but still well-formed.
-/

namespace HeaderInterop

inductive Json where
  | null
  | bool (value : Bool)
  | number (spelling : String)
  | string (text : String)
  | array (items : List Json)
  | object (members : List (String × Json))
  /-- A string that is no text, or an object with a key that is none. -/
  | garbled
deriving Repr, Inhabited

namespace Json

/-- The value of the first member with the key. -/
def get? (key : String) : Json → Option Json
  | object members => members.lookup key
  | _ => none

def text? : Json → Option String
  | string text => some text
  | _ => none

def bool? : Json → Option Bool
  | bool value => some value
  | _ => none

def items? : Json → Option (List Json)
  | array items => some items
  | _ => none

def members? : Json → Option (List (String × Json))
  | object members => some members
  | _ => none

/-- A whole number that is not negative, in plain digits. -/
def nat? : Json → Option Nat
  | number spelling => if spelling.toList.all Char.isDigit then spelling.toNat? else none
  | _ => none

def ofNat (n : Nat) : Json :=
  number (toString n)

/-- A value that may be absent; `null` stands for absence. -/
def ofOption {α : Type} (encode : α → Json) : Option α → Json
  | none => null
  | some a => encode a

def ofList {α : Type} (encode : α → Json) (items : List α) : Json :=
  array (items.map encode)

end Json

end HeaderInterop
