/-!
Texts as lines and pieces. A line ends at a line feed, and a carriage return right before that
line feed belongs to the ending; a text that ends in a line feed has no empty last line.
-/

namespace HeaderInterop.Text

/-- A line without the carriage return before its line feed. -/
def dropReturn (line : List Char) : List Char :=
  if line.getLast? = some '\r' then line.dropLast else line

/-- The lines of a text, each without its ending. The first argument holds the current line,
reversed. -/
def linesFrom (current : List Char) : List Char → List (List Char)
  | [] => if current.isEmpty then [] else [current.reverse]
  | '\n' :: rest => dropReturn current.reverse :: linesFrom [] rest
  | c :: rest => linesFrom (c :: current) rest

def lines (text : List Char) : List (List Char) :=
  linesFrom [] text

/-- What follows `start` in the text, when the text begins with it. -/
def after? : List Char → List Char → Option (List Char)
  | [], text => some text
  | _ :: _, [] => none
  | s :: start, c :: text => if s = c then after? start text else none

/-- Whether `part` stands somewhere in the text. -/
def contains (part : List Char) : List Char → Bool
  | [] => part.isEmpty
  | c :: text => part.isPrefixOf (c :: text) || contains part text

def endsWith (part text : List Char) : Bool :=
  part.isSuffixOf text

def lowerAscii (text : List Char) : List Char :=
  text.map Char.toLower

/-- The first place where the character stands: what is before it and what is after it. -/
def splitAtFirst (mark : Char) : List Char → Option (List Char × List Char)
  | [] => none
  | c :: text =>
    if c = mark then some ([], text)
    else (splitAtFirst mark text).map fun (before, rest) => (c :: before, rest)

theorem after?_eq_some_iff {start text rest : List Char} :
    after? start text = some rest ↔ text = start ++ rest := by
  induction start generalizing text with
  | nil => simp [after?, eq_comm]
  | cons s start ih =>
    cases text with
    | nil => simp [after?]
    | cons c text =>
      by_cases h : s = c
      · simp [after?, h, ih]
      · simp [after?, h, Ne.symm h]

theorem splitAtFirst_eq_some {mark : Char} {text before rest : List Char}
    (h : splitAtFirst mark text = some (before, rest)) : text = before ++ mark :: rest := by
  induction text generalizing before rest with
  | nil => simp [splitAtFirst] at h
  | cons c text ih =>
    by_cases hc : c = mark
    · simp only [splitAtFirst, hc, if_true, Option.some.injEq, Prod.mk.injEq] at h
      obtain ⟨rfl, rfl⟩ := h
      simp [hc]
    · simp only [splitAtFirst, hc, if_false, Option.map_eq_some_iff, Prod.mk.injEq,
        Prod.exists] at h
      obtain ⟨b, r, hs, rfl, rfl⟩ := h
      simp [ih hs]

end HeaderInterop.Text
