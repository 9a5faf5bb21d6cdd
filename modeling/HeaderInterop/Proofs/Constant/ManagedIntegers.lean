import HeaderInterop.Proofs.Constant.Integers

/-!
Integer literals of managed code. Their suffixes have one `L` at most, and a zero in front of the
digits is no mark of a base. An integer constant of C keeps its digits and all of its suffix but the
second of two `L`s at the end, so that it is such a literal, and octal digits are read as a decimal.
-/

namespace HeaderInterop.Literal

def managedSuffixes : List (List Char) :=
  [[], ['u'], ['U'], ['l'], ['L'], ['u', 'l'], ['u', 'L'], ['U', 'l'], ['U', 'L'], ['l', 'u'],
   ['l', 'U'], ['L', 'u'], ['L', 'U']]

/-- The number that digits of a base spell, with a suffix behind them. -/
def suffixedNumber? (base : Nat) (text : List Char) : Option Nat :=
  if managedSuffixes.contains (text.dropWhile (Text.isDigitOf base)) then
    Text.inBase? base (text.takeWhile (Text.isDigitOf base))
  else none

/-- The number that a text denotes as an integer literal of managed code, decimal or hexadecimal. -/
def managedInteger? (text : List Char) : Option Nat :=
  if isHex text then suffixedNumber? 16 (text.drop 2) else suffixedNumber? 10 text

theorem suffixedNumber?_append {base : Nat} {digits letters : List Char}
    (hdigits : ∀ c ∈ digits, Text.isDigitOf base c = true)
    (hletters : ∀ c ∈ letters.head?, Text.isDigitOf base c = false)
    (hsuffix : managedSuffixes.contains letters = true) :
    suffixedNumber? base (digits ++ letters) = Text.inBase? base digits := by
  have hfront : letters.takeWhile (Text.isDigitOf base) = [] ∧
      letters.dropWhile (Text.isDigitOf base) = letters := by
    cases letters with
    | nil => exact ⟨rfl, rfl⟩
    | cons c rest =>
      have hc : ¬ Text.isDigitOf base c = true := by simp [hletters c rfl]
      exact ⟨List.takeWhile_cons_of_neg hc, List.dropWhile_cons_of_neg hc⟩
  rw [suffixedNumber?, List.dropWhile_append_of_pos hdigits, List.takeWhile_append_of_pos hdigits,
    hfront.1, hfront.2, if_pos hsuffix, List.append_nil]

namespace Suffix

/-- Two `L`s stand in front of a `U`. -/
def isDoubledFirst (suffix : Suffix) : Bool :=
  suffix.longFirst && suffix.longMark.length == 2 && !suffix.unsignedMark.isEmpty

/-- Of two `L`s one is dropped, unless a `U` is behind them. -/
theorem contains_shortened {suffix : Suffix} (h : suffix.isDoubledFirst = false) :
    managedSuffixes.contains (shortened suffix.letters) = true := by
  have hmarks : ∀ unsignedMark ∈ unsignedMarks, ∀ longMark ∈ longMarks, ∀ longFirst : Bool,
      (longFirst && longMark.length == 2 && !unsignedMark.isEmpty) = false →
        managedSuffixes.contains (shortened (suffixLetters unsignedMark longMark longFirst)) =
          true := by
    decide
  exact hmarks suffix.unsignedMark suffix.unsignedMark_mem suffix.longMark suffix.longMark_mem
    suffix.longFirst h

/-- No letter of a suffix is a digit, not even a hexadecimal one. -/
theorem head?_shortened (suffix : Suffix) :
    ∀ c ∈ (shortened suffix.letters).head?,
      c ≠ 'x' ∧ c ≠ 'X' ∧ Text.isDigitOf 10 c = false ∧ Text.isDigitOf 16 c = false := by
  have hmarks : ∀ unsignedMark ∈ unsignedMarks, ∀ longMark ∈ longMarks, ∀ longFirst : Bool,
      (shortened (suffixLetters unsignedMark longMark longFirst)).head?.all (fun c =>
        c ≠ 'x' ∧ c ≠ 'X' ∧ Text.isDigitOf 10 c = false ∧ Text.isDigitOf 16 c = false) = true := by
    decide
  have hall := hmarks suffix.unsignedMark suffix.unsignedMark_mem suffix.longMark
    suffix.longMark_mem suffix.longFirst
  intro c hc
  rw [show suffixLetters suffix.unsignedMark suffix.longMark suffix.longFirst = suffix.letters from
    rfl, Option.all_eq_true] at hall
  exact of_decide_eq_true (hall c hc)

end Suffix

namespace IntegerConstant

variable {x : IntegerConstant}

theorem isHex_number_append (h : x.base.isHexadecimal = false) {letters : List Char}
    (hletters : ∀ c ∈ letters.head?, c ≠ 'x' ∧ c ≠ 'X') :
    isHex (x.number ++ letters) = false := by
  have hmark {mark : Char} (hdigit : mark.isDigit = false)
      (hne : ∀ c ∈ letters.head?, c ≠ mark) :
      ['0', mark].isPrefixOf (x.number ++ letters) = false := by
    obtain ⟨hnil, hall⟩ := Text.digits?_eq_some (digits?_eq_some h)
    rw [number_of_decimal h, Bool.eq_false_iff, Ne, List.isPrefixOf_iff_prefix]
    rintro ⟨rest, hrest⟩
    cases hdigits : x.digits with
    | nil => exact hnil hdigits
    | cons c others =>
      rw [hdigits] at hrest hall
      cases others with
      | nil =>
        have hbehind : mark :: rest = letters := (List.cons.inj hrest).2
        exact hne mark (by rw [← hbehind]; rfl) rfl
      | cons d others =>
        obtain ⟨-, hbehind⟩ := List.cons.inj hrest
        obtain ⟨rfl, -⟩ := List.cons.inj hbehind
        simp [hdigit] at hall
  rw [isHex, hmark (by decide) fun c hc => (hletters c hc).1,
    hmark (by decide) fun c hc => (hletters c hc).2, Bool.or_false]

/-- The number that the digits spell where only a hexadecimal one has a base of its own. -/
def managedMagnitude (x : IntegerConstant) : Nat :=
  if x.base = .octal then Text.digitsValue x.digits else x.magnitude

theorem radix_of_isHexadecimal (h : x.base.isHexadecimal = true) : x.base.radix = 16 := by
  cases hbase : x.base with
  | decimal | octal =>
    rw [hbase] at h
    cases h
  | hexadecimal capital => rfl

theorem managedMagnitude_of_isHexadecimal (h : x.base.isHexadecimal = true) :
    x.managedMagnitude = x.magnitude := by
  refine if_neg fun hoctal => ?_
  rw [hoctal] at h
  cases h

theorem managedMagnitude_of_decimal (h : x.base.isHexadecimal = false) :
    x.managedMagnitude = Text.digitsValue x.digits := by
  rw [managedMagnitude]
  split
  next => rfl
  next hoctal =>
    have hreads := x.reads
    cases hbase : x.base with
    | decimal =>
      rw [hbase] at hreads
      exact (Text.digitsValue_of_inBase?_ten hreads).symm
    | octal => exact absurd hbase hoctal
    | hexadecimal capital =>
      rw [hbase] at h
      cases h

section Letters

variable {letters : List Char}
  (hletters : ∀ c ∈ letters.head?,
    c ≠ 'x' ∧ c ≠ 'X' ∧ Text.isDigitOf 10 c = false ∧ Text.isDigitOf 16 c = false)
  (hsuffix : managedSuffixes.contains letters = true)
include hletters hsuffix

theorem managedInteger?_of_isHexadecimal (h : x.base.isHexadecimal = true) :
    managedInteger? (x.number ++ letters) = some x.managedMagnitude := by
  obtain ⟨mark, hmark, hnumber⟩ := number_of_isHexadecimal h
  have hprefix : isHex (x.number ++ letters) = true := by
    rw [hnumber]
    rcases (by simpa using hmark : mark = 'x' ∨ mark = 'X') with rfl | rfl <;> rfl
  have hdrop : (x.number ++ letters).drop 2 = x.digits ++ letters := by
    rw [hnumber]
    rfl
  have hdigits : ∀ c ∈ x.digits, Text.isDigitOf 16 c = true := forall_mem_digits (by decide)
  have hreads := x.reads
  rw [radix_of_isHexadecimal h] at hreads
  rw [managedInteger?, if_pos hprefix, hdrop,
    suffixedNumber?_append hdigits (fun c hc => (hletters c hc).2.2.2) hsuffix, hreads,
    managedMagnitude_of_isHexadecimal h]

theorem managedInteger?_of_decimal (h : x.base.isHexadecimal = false) :
    managedInteger? (x.number ++ letters) = some x.managedMagnitude := by
  have hplain := isHex_number_append h fun c hc => ⟨(hletters c hc).1, (hletters c hc).2.1⟩
  have hvalue := digits?_eq_some h
  have hdigits : ∀ c ∈ x.digits, Text.isDigitOf 10 c = true := fun c hc =>
    Text.forall_isDigit (p := fun c => Text.isDigitOf 10 c = true) (by decide)
      (List.all_eq_true.mp (Text.digits?_eq_some hvalue).2 c hc)
  rw [managedInteger?, hplain, if_neg Bool.false_ne_true, number_of_decimal h,
    suffixedNumber?_append hdigits (fun c hc => (hletters c hc).2.2.1) hsuffix,
    Text.inBase?_ten_of_digits? hvalue, managedMagnitude_of_decimal h]

end Letters

/-- Octal digits spell the same number as a decimal exactly if it is that of one of them. -/
theorem managedMagnitude_eq_iff (x : IntegerConstant) :
    x.managedMagnitude = x.magnitude ↔ (x.base = .octal → x.magnitude < 8) := by
  rw [managedMagnitude]
  split
  next hoctal =>
    have hreads := x.reads
    rw [hoctal] at hreads
    have hrelated := Text.digitsValue_of_inBase?_eight hreads
    simp only [hoctal, true_implies]
    omega
  next hother => simp [hother]

/-- An integer constant of C is one token, and what becomes of it is an integer literal of managed
code unless two `L`s stand in front of a `U`. It denotes the number that the digits spell, octal
digits as a decimal: that is the number of the constant, unless it is octal and eight or more. -/
theorem managedInteger?_normalize (x : IntegerConstant) (hsign : x.negative = false)
    (hsuffix : x.suffix.isDoubledFirst = false) :
    Macro.tokenize (x.text 0) = [x.text 0] ∧
      managedInteger? (normalize [x.text 0]).toList = some x.managedMagnitude ∧
      (x.managedMagnitude = x.magnitude ↔ (x.base = .octal → x.magnitude < 8)) := by
  have hdigit := startsWithDigit_append (startsWithDigit_number (x := x)) x.suffix.letters
  have htokens : Macro.tokenize (x.text 0) = [x.text 0] := by
    rw [text, Macro.tokenize_inParens hdigit all_isAlphanum, hsign]
    rfl
  have hnormal := normalize_tokenize_inParens (startsWithDigit_number (x := x)) endsInDigit_number
    all_isAlphanum x.negative 0
  rw [← text, htokens, hsign] at hnormal
  refine ⟨htokens, ?_, x.managedMagnitude_eq_iff⟩
  rw [hnormal, String.toList_ofList]
  have hletters := x.suffix.head?_shortened
  have hmanaged := Suffix.contains_shortened hsuffix
  cases hhex : x.base.isHexadecimal with
  | true => exact managedInteger?_of_isHexadecimal hletters hmanaged hhex
  | false => exact managedInteger?_of_decimal hletters hmanaged hhex

def allOnesLong : IntegerConstant where
  negative := false
  base := .hexadecimal true
  digits := "fFfFfFfFfFfFfFfF".toList
  suffix := ⟨['u'], ['l', 'l'], false, by decide, by decide⟩
  magnitude := 0xFFFFFFFFFFFFFFFF
  reads := by decide
  starts := by decide

theorem managedInteger?_normalize_allOnesLong :
    allOnesLong.text 0 = "0XfFfFfFfFfFfFfFfFull" ∧ allOnesLong.negative = false ∧
      allOnesLong.suffix.isDoubledFirst = false ∧
      normalize ["0XfFfFfFfFfFfFfFfFull"] = "0XfFfFfFfFfFfFfFfFuL" ∧
      managedInteger? "0XfFfFfFfFfFfFfFfFuL".toList = some 0xFFFFFFFFFFFFFFFF := by
  have htext : allOnesLong.text 0 = "0XfFfFfFfFfFfFfFfFull" := by decide
  have hnormal : normalize ["0XfFfFfFfFfFfFfFfFull"] = "0XfFfFfFfFfFfFfFfFuL" := by
    decide +kernel
  have hsuffix : allOnesLong.suffix.isDoubledFirst = false := by decide
  obtain ⟨-, hmanaged, hsame⟩ := managedInteger?_normalize allOnesLong rfl hsuffix
  rw [htext, hnormal, hsame.mpr (by decide)] at hmanaged
  exact ⟨htext, rfl, hsuffix, hnormal, hmanaged⟩

def octalTen : IntegerConstant where
  negative := false
  base := .octal
  digits := "010".toList
  suffix := .plain
  magnitude := 8
  reads := by decide
  starts := by decide

/-- An octal number keeps its zero and its digits, which spell a larger number in managed code. -/
theorem managedInteger?_octalTen :
    octalTen.text 0 = "010" ∧ Macro.tokenize "010" = ["010"] ∧ octalTen.magnitude = 8 ∧
      normalize ["010"] = "010" ∧ managedInteger? "010".toList = some 10 := by
  decide +kernel

end IntegerConstant

end HeaderInterop.Literal
