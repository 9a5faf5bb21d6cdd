import HeaderInterop.Text.Alphabetic
import HeaderInterop.Text.Numeric

/-!
Character classes of the whole code space. On ASCII they agree with core's classes; above it they
read the tables of this folder. White space is the property White_Space, which also holds of the
line tabulation, the form feed and the no-break space.
-/

namespace HeaderInterop.Text

def inRanges (table : List (Nat × Nat)) (code : Nat) : Bool :=
  table.any fun range => range.1 ≤ code && code ≤ range.2

/-- Closed ranges of the property White_Space. -/
def blankRanges : List (Nat × Nat) :=
  [(0x9, 0xd), (0x20, 0x20), (0x85, 0x85), (0xa0, 0xa0), (0x1680, 0x1680), (0x2000, 0x200a),
   (0x2028, 0x2029), (0x202f, 0x202f), (0x205f, 0x205f), (0x3000, 0x3000)]

def isBlank (c : Char) : Bool :=
  inRanges blankRanges c.toNat

/-- A blank or a tab: white space inside a line of a program text. -/
def isGap (c : Char) : Bool :=
  c == ' ' || c == '\t'

def isAlphabetic (c : Char) : Bool :=
  if c.toNat < 0x80 then c.isAlpha else inRanges alphabeticRanges c.toNat

def isNumeric (c : Char) : Bool :=
  if c.toNat < 0x80 then c.isDigit else inRanges numericRanges c.toNat

/-- Starts a word: a letter of any script or an underscore. -/
def isWordStart (c : Char) : Bool :=
  isAlphabetic c || c == '_'

/-- Continues a word: a letter or number of any script or an underscore. -/
def isWordPart (c : Char) : Bool :=
  isAlphabetic c || isNumeric c || c == '_'

/-- An ASCII letter or underscore. -/
def isNameStart (c : Char) : Bool :=
  c.isAlpha || c == '_'

/-- An ASCII letter, digit or underscore. -/
def isNamePart (c : Char) : Bool :=
  c.isAlphanum || c == '_'

theorem isWordPart_of_isWordStart {c : Char} (h : isWordStart c = true) : isWordPart c = true := by
  simp only [isWordStart, isWordPart, Bool.or_eq_true] at *
  rcases h with h | h
  · exact Or.inl (Or.inl h)
  · exact Or.inr h

theorem isNamePart_of_isNameStart {c : Char} (h : isNameStart c = true) : isNamePart c = true := by
  simp only [isNameStart, isNamePart, Char.isAlphanum, Bool.or_eq_true] at *
  rcases h with h | h
  · exact Or.inl (Or.inl h)
  · exact Or.inr h

/-- The text without the blanks at its start. -/
def trimStart (cs : List Char) : List Char :=
  cs.dropWhile isBlank

/-- The text without the blanks at either end. -/
def trim (cs : List Char) : List Char :=
  ((trimStart cs).reverse.dropWhile isBlank).reverse

theorem length_trimStart_le (cs : List Char) : (trimStart cs).length ≤ cs.length :=
  (List.dropWhile_sublist _).length_le

end HeaderInterop.Text
