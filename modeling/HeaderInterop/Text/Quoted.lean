import HeaderInterop.Text.Hidden
import HeaderInterop.Text.Class

/-!
Quoted text, as messages show it: a text between double quotes, a character between single ones.
The delimiter and the backslash are escaped, and a character without a glyph of its own is written
by its code point.
-/

namespace HeaderInterop.Text

/-- No glyph of its own, so quoted text writes the code point instead. -/
def isHidden (c : Char) : Bool :=
  inRanges hiddenRanges c.toNat

/-- The code point in the least number of lower-case hexadecimal digits, in braces. -/
def codePoint (c : Char) : List Char :=
  "\\u\x7b".toList ++ Nat.toDigits 16 c.toNat ++ ['\x7d']

def escapeChar (delimiter c : Char) : List Char :=
  match c with
  | '\x00' => ['\\', '0']
  | '\t' => ['\\', 't']
  | '\n' => ['\\', 'n']
  | '\r' => ['\\', 'r']
  | '\\' => ['\\', '\\']
  | _ =>
    if c = delimiter then ['\\', c]
    else if isHidden c then codePoint c
    else [c]

/-- A text between double quotes. -/
def quote (s : String) : String :=
  String.ofList ('"' :: s.toList.flatMap (escapeChar '"') ++ ['"'])

/-- A character between single quotes. -/
def quoteChar (c : Char) : String :=
  String.ofList ('\'' :: escapeChar '\'' c ++ ['\''])

/-- The shown form of a value that may be absent. -/
def showOption {α : Type} (text : α → String) : Option α → String
  | none => "None"
  | some a => "Some(" ++ text a ++ ")"

/-- The shown form of a list: the items between brackets, a comma and a blank between them. -/
def showList {α : Type} (text : α → String) (items : List α) : String :=
  "[" ++ ", ".intercalate (items.map text) ++ "]"

end HeaderInterop.Text
