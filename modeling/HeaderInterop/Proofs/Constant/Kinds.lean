import HeaderInterop.Proofs.Macro.Numbers
import HeaderInterop.Proofs.Text.Numerals

/-!
The type that is read off a number. A suffix decides it, whatever the digits are; without one it is
that of 32 bits, if the digits are hexadecimal or read as a decimal that fits.
-/

namespace HeaderInterop

namespace Literal

open Macro (signedText signedTokens)

/-! Suffixes -/

def unsignedMarks : List (List Char) :=
  [[], ['u'], ['U']]

def longMarks : List (List Char) :=
  [[], ['l'], ['L'], ['l', 'l'], ['L', 'L']]

/-- The suffix of an integer: a mark of an unsigned type and one of a long type, either of which may
be empty and either of which may come first. -/
structure Suffix where
  unsignedMark : List Char
  longMark : List Char
  longFirst : Bool
  unsignedMark_mem : unsignedMark ∈ unsignedMarks
  longMark_mem : longMark ∈ longMarks

/-- The type that a suffix stands for. -/
def suffixKind? (unsignedMark longMark : List Char) : Option Kind :=
  match unsignedMark, longMark with
  | [], [] => none
  | _ :: _, [] => some .uint
  | [], _ :: _ => some .long
  | _ :: _, _ :: _ => some .ulong

def suffixLetters (unsignedMark longMark : List Char) (longFirst : Bool) : List Char :=
  if longFirst then longMark ++ unsignedMark else unsignedMark ++ longMark

namespace Suffix

def letters (suffix : Suffix) : List Char :=
  suffixLetters suffix.unsignedMark suffix.longMark suffix.longFirst

def kind? (suffix : Suffix) : Option Kind :=
  suffixKind? suffix.unsignedMark suffix.longMark

/-- No suffix. -/
def plain : Suffix :=
  ⟨[], [], false, by decide, by decide⟩

def long : Suffix :=
  ⟨[], ['L'], false, by decide, by decide⟩

def unsignedLong : Suffix :=
  ⟨['U'], ['L'], false, by decide, by decide⟩

end Suffix

/-- The letters with one `L` for two at the end. -/
def shortened (letters : List Char) : List Char :=
  if Text.endsWith ['l', 'l'] (Text.lowerAscii letters) then
    letters.take (letters.length - 2) ++ ['L']
  else letters

/-- The type that small letters at the end of a number stand for. -/
def kindOfEnding? (lower : List Char) : Option Kind :=
  if Text.endsWith ['u', 'l'] lower || Text.endsWith ['l', 'u'] lower then some .ulong
  else if Text.endsWith ['u'] lower then some .uint
  else if Text.endsWith ['l'] lower then some .long
  else none

/-- Of the letters of a suffix two at the end are looked at, after one of two has been dropped. They
say the same as the marks. -/
theorem kindOfEnding?_shortened :
    ∀ unsignedMark ∈ unsignedMarks, ∀ longMark ∈ longMarks, ∀ longFirst : Bool,
      let letters := suffixLetters unsignedMark longMark longFirst
      kindOfEnding? (Text.lowerAscii (shortened letters)) = suffixKind? unsignedMark longMark ∧
        (letters ≠ [] → 1 ≤ (shortened letters).length ∧
          Text.endsWith ['f'] (Text.lowerAscii (shortened letters)) = false) := by
  decide

theorem Suffix.kind?_eq_none_iff (suffix : Suffix) : suffix.kind? = none ↔ suffix.letters = [] := by
  have hmarks : ∀ unsignedMark ∈ unsignedMarks, ∀ longMark ∈ longMarks, ∀ longFirst : Bool,
      suffixKind? unsignedMark longMark = none ↔
        suffixLetters unsignedMark longMark longFirst = [] := by
    decide
  exact hmarks suffix.unsignedMark suffix.unsignedMark_mem suffix.longMark suffix.longMark_mem
    suffix.longFirst

theorem Suffix.marks_eq_nil {suffix : Suffix} (h : suffix.letters = []) :
    suffix.unsignedMark = [] ∧ suffix.longMark = [] := by
  rw [letters, suffixLetters] at h
  split at h
  next => exact (List.append_eq_nil_iff.mp h).symm
  next => exact List.append_eq_nil_iff.mp h

/-- The last character of a number without a suffix, which is no letter of one. -/
def EndsInDigit (number : List Char) : Prop :=
  ∀ c ∈ number.getLast?, c.toLower ≠ 'u' ∧ c.toLower ≠ 'l'

theorem EndsInDigit.getLast?_lowerAscii {number : List Char} (h : EndsInDigit number) :
    ∀ c ∈ (Text.lowerAscii number).getLast?, c ≠ 'u' ∧ c ≠ 'l' := by
  intro c hc
  rw [Text.getLast?_lowerAscii] at hc
  obtain ⟨d, hd, rfl⟩ := Option.map_eq_some_iff.mp hc
  exact h d hd

theorem startsWithDigit_append {number : List Char} (h : startsWithDigit number = true)
    (back : List Char) : startsWithDigit (number ++ back) = true := by
  cases number with
  | nil => cases h
  | cons c rest => exact h

theorem shortenSuffix_append {number : List Char} (hdigit : startsWithDigit number = true)
    (hlast : EndsInDigit number) (letters : List Char) :
    shortenSuffix (number ++ letters) = number ++ shortened letters := by
  have hstart := startsWithDigit_append hdigit letters
  have hends : Text.endsWith ['l', 'l'] (Text.lowerAscii (number ++ letters)) =
      Text.endsWith ['l', 'l'] (Text.lowerAscii letters) := by
    rw [Text.lowerAscii_append]
    refine Text.endsWith_append_of_notMem (fun c hc => ?_) _
    simpa using (hlast.getLast?_lowerAscii c hc).2
  rw [shortenSuffix, shortened, hstart, hends, Bool.true_and]
  split
  next hlong =>
    have hlength : 2 ≤ letters.length := by
      simpa [Text.lowerAscii] using (Text.endsWith_eq_true_iff.mp hlong).length_le
    have hkept : (number ++ letters).length - 2 = number.length + (letters.length - 2) := by
      rw [List.length_append]
      omega
    rw [hkept, List.take_length_add_append, List.append_assoc]
  next => rfl

theorem notMem_signedTokens {number : List Char} (hdigit : startsWithDigit number = true)
    (negative : Bool) {mark : String} (hminus : mark ≠ "-")
    (hmark : startsWithDigit mark.toList = false) : mark ∉ signedTokens negative number := by
  have hnumber : mark ≠ String.ofList number := by
    rintro rfl
    rw [String.toList_ofList, hdigit] at hmark
    cases hmark
  cases negative <;> simp [signedTokens, hminus, hnumber]

/-- No quote starts a minus sign or a number. -/
theorem areStrings_signedTokens {number : List Char} (hdigit : startsWithDigit number = true)
    (negative : Bool) : Constant.areStrings (signedTokens negative number) = false := by
  cases negative with
  | true => rfl
  | false =>
    cases number with
    | nil => cases hdigit
    | cons c rest =>
      have hc : c.isDigit = true := hdigit
      have hne : c ≠ '"' := by rintro rfl; simp at hc
      simp [Constant.areStrings, Constant.isStringToken, signedTokens, hne]

/-- The text that the type of a number is read off: the parentheses are gone, the suffix is shortened,
and the sign is back in front of the number. -/
theorem normalize_tokenize_inParens {number letters : List Char}
    (hdigit : startsWithDigit number = true) (hlast : EndsInDigit number)
    (hall : (number ++ letters).all Char.isAlphanum = true) (negative : Bool) (pairs : Nat) :
    normalize (Macro.tokenize
        (String.ofList (Macro.inParens pairs (signedText negative (number ++ letters))))) =
      String.ofList (signedText negative number ++ shortened letters) := by
  have hwhole := startsWithDigit_append hdigit letters
  have hopen : "(" ∉ signedTokens negative (number ++ letters) :=
    notMem_signedTokens hwhole negative (by decide) (by decide)
  have hclose : ")" ∉ signedTokens negative (number ++ letters) :=
    notMem_signedTokens hwhole negative (by decide) (by decide)
  rw [Macro.tokenize_inParens hwhole hall, normalize_enclosed (isBalanced_of_notMem hopen hclose),
    normalize, stripParens_of_head_ne fun hhead => hopen (List.mem_of_mem_head? hhead)]
  have hshort := shortenSuffix_append hdigit hlast letters
  cases negative with
  | false => simp [signedTokens, signedText, hshort]
  | true =>
    have hminus : shortenSuffix ['-'] = ['-'] := by decide
    simp [signedTokens, signedText, hshort, hminus]

theorem isNumeric_signedText {number : List Char} (hdigit : startsWithDigit number = true)
    (negative : Bool) (back : List Char) : isNumeric (signedText negative number ++ back) = true := by
  cases number with
  | nil => cases hdigit
  | cons c rest =>
    have hc : c.isDigit = true := hdigit
    have hminus : '-' ≠ c := by rintro rfl; simp at hc
    have hpoint : '.' ≠ c := by rintro rfl; simp at hc
    cases negative <;>
      simp [isNumeric, signedText, Text.after?, hminus, hpoint, startsWithDigit, hc]

theorem getLast?_signedText {number : List Char} (hne : number ≠ []) (negative : Bool) :
    (signedText negative number).getLast? = number.getLast? := by
  obtain ⟨c, rest, rfl⟩ := List.exists_cons_of_ne_nil hne
  cases negative with
  | false => rfl
  | true => exact List.getLast?_cons_cons

theorem ne_nil_of_startsWithDigit {number : List Char} (h : startsWithDigit number = true) :
    number ≠ [] := by
  rintro rfl
  cases h

theorem EndsInDigit.signedText {number : List Char} (h : EndsInDigit number) (hne : number ≠ [])
    (negative : Bool) : EndsInDigit (signedText negative number) := by
  rw [EndsInDigit, getLast?_signedText hne]
  exact h

/-- A suffix decides, whatever the number in front of it is. -/
theorem kindOfChars?_of_suffix {number : List Char} (hdigit : startsWithDigit number = true)
    (hlast : EndsInDigit number) (negative : Bool) (suffix : Suffix) (hsuffix : suffix.letters ≠ []) :
    kindOfChars? (signedText negative number ++ shortened suffix.letters) = suffix.kind? := by
  have hnumeric := isNumeric_signedText hdigit negative (shortened suffix.letters)
  have hsigned := hlast.signedText (ne_nil_of_startsWithDigit hdigit) negative
  generalize signedText negative number = front at hnumeric hsigned ⊢
  have hsome : suffix.kind? ≠ none := mt suffix.kind?_eq_none_iff.mp hsuffix
  obtain ⟨hkind, hletters⟩ := kindOfEnding?_shortened suffix.unsignedMark suffix.unsignedMark_mem
    suffix.longMark suffix.longMark_mem suffix.longFirst
  obtain ⟨hlength, hfloat⟩ := hletters hsuffix
  have hback : suffixLetters suffix.unsignedMark suffix.longMark suffix.longFirst = suffix.letters :=
    rfl
  rw [hback] at hkind hlength hfloat
  generalize shortened suffix.letters = back at hnumeric hkind hlength hfloat ⊢
  -- one letter is looked for in the suffix, and two are not found across its start
  have hone (letter : Char) : Text.endsWith [letter] (Text.lowerAscii (front ++ back)) =
      Text.endsWith [letter] (Text.lowerAscii back) := by
    rw [Text.lowerAscii_append]
    exact Text.endsWith_append_of_length_le (by simpa [Text.lowerAscii] using hlength) _
  have htwo (part : List Char) (hpart : ∀ c ∈ part, c = 'u' ∨ c = 'l') :
      Text.endsWith part (Text.lowerAscii (front ++ back)) =
        Text.endsWith part (Text.lowerAscii back) := by
    rw [Text.lowerAscii_append]
    refine Text.endsWith_append_of_notMem (fun c hc hmem => ?_) _
    have hnot := hsigned.getLast?_lowerAscii c hc
    exact (hpart c hmem).elim hnot.1 hnot.2
  have hul := htwo ['u', 'l'] (by simp)
  have hlu := htwo ['l', 'u'] (by simp)
  change kindOfEnding? (Text.lowerAscii back) = suffix.kind? at hkind
  rw [← hkind] at hsome ⊢
  unfold kindOfEnding? at hsome ⊢
  unfold kindOfChars?
  simp only [hnumeric, hone, hul, hlu, hfloat, Bool.not_true, Bool.false_and, Bool.false_eq_true,
    if_false]
  split
  next => rfl
  next hboth =>
    rw [if_neg hboth] at hsome
    split
    next => rfl
    next hunsigned =>
      rw [if_neg hunsigned] at hsome
      split
      next => rfl
      next hlong => exact absurd (if_neg hlong) hsome

/-! No suffix -/

/-- A digit at the end is no letter of a suffix. -/
theorem endsWith_eq_false_of_isDigit {value part : List Char}
    (hlast : ∀ c ∈ value.getLast?, c.isDigit = true) (hne : part ≠ [])
    (hletters : part ⊆ ['u', 'l', 'f']) : Text.endsWith part (Text.lowerAscii value) = false := by
  refine Text.endsWith_eq_false_of_notMem hne fun last hmem hpart => ?_
  rw [Text.getLast?_lowerAscii] at hmem
  obtain ⟨c, hc, rfl⟩ := Option.map_eq_some_iff.mp hmem
  exact Text.forall_isDigit (p := fun c => c.toLower ∉ ['u', 'l', 'f']) (by decide) (hlast c hc)
    (hletters hpart)

/-- Without letters of a suffix at the end no type is read off them. -/
theorem EndsInDigit.endsWith_eq_false {number part : List Char} (h : EndsInDigit number)
    (hpart : part ≠ []) (hmarks : ∀ c ∈ part, c = 'u' ∨ c = 'l') :
    Text.endsWith part (Text.lowerAscii number) = false := by
  refine Text.endsWith_eq_false_of_notMem hpart fun c hc hmem => ?_
  have hnot := h.getLast?_lowerAscii c hc
  exact (hmarks c hmem).elim hnot.1 hnot.2

theorem kindOfChars?_of_isHex {number : List Char} (hdigit : startsWithDigit number = true)
    (hlast : EndsInDigit number) (hhex : isHex number = true) :
    kindOfChars? number = some .uint := by
  have hnumeric : isNumeric number = true := by
    simpa [signedText] using isNumeric_signedText hdigit false []
  have hmarks {part : List Char} (hpart : part ≠ []) (hmem : ∀ c ∈ part, c = 'u' ∨ c = 'l') :=
    hlast.endsWith_eq_false hpart hmem
  unfold kindOfChars?
  simp [hnumeric, hhex, hmarks]

theorem startsWithDigit_of_all {digits : List Char} (hne : digits ≠ [])
    (hall : digits.all Char.isDigit = true) : startsWithDigit digits = true := by
  obtain ⟨c, rest, rfl⟩ := List.exists_cons_of_ne_nil hne
  exact (Bool.and_eq_true_iff.mp hall).1

/-- The type of decimal digits of a value, behind a minus sign or not. -/
def decimalKind? (negative : Bool) (value : Nat) : Option Kind :=
  if negative then if value ≤ 0x80000000 then some .int else none
  else if value ≤ Text.maxUInt32 then some .uint
  else none

section Digits

variable {digits : List Char} (hall : digits.all Char.isDigit = true)
include hall

theorem notMem_signedText {c : Char} (hdigit : c.isDigit = false) (hminus : c ≠ '-')
    (negative : Bool) : c ∉ signedText negative digits := by
  have hnot : c ∉ digits := by
    intro hmem
    rw [List.all_eq_true.mp hall c hmem] at hdigit
    cases hdigit
  cases negative with
  | false => exact hnot
  | true => exact List.not_mem_cons_of_ne_of_not_mem hminus hnot

theorem isHex_signedText (negative : Bool) : isHex (signedText negative digits) = false := by
  have hmark {x : Char} (hdigit : x.isDigit = false) (hminus : x ≠ '-') :
      ['0', x].isPrefixOf (signedText negative digits) = false := by
    rw [Bool.eq_false_iff, Ne, List.isPrefixOf_iff_prefix]
    rintro ⟨rest, hrest⟩
    exact notMem_signedText hall hdigit hminus negative (hrest ▸ by simp)
  rw [isHex, hmark (by decide) (by decide), hmark (by decide) (by decide), Bool.or_false]

/-- Neither letters at the end, nor a point, nor a shift stand in decimal digits. -/
theorem kindOfChars?_signedText (hne : digits ≠ []) (negative : Bool) :
    kindOfChars? (signedText negative digits) =
      if (Text.unsigned? Text.maxUInt32 (signedText negative digits)).isSome then some .uint
      else if (Text.signed? Text.minInt32 Text.maxInt32 (signedText negative digits)).isSome then
        some .int
      else none := by
  have hnumeric : isNumeric (signedText negative digits) = true := by
    simpa using isNumeric_signedText (startsWithDigit_of_all hne hall) negative []
  have hends {part : List Char} (hpart : part ≠ []) (hletters : part ⊆ ['u', 'l', 'f']) :
      Text.endsWith part (Text.lowerAscii (signedText negative digits)) = false := by
    refine endsWith_eq_false_of_isDigit (fun last hlast => ?_) hpart hletters
    rw [getLast?_signedText hne] at hlast
    exact List.all_eq_true.mp hall last (List.mem_of_getLast? hlast)
  have hpoint : '.' ∉ signedText negative digits :=
    notMem_signedText hall (by decide) (by decide) negative
  have hshift : hasShift (signedText negative digits) = false :=
    Text.contains_eq_false_of_notMem
      (notMem_signedText hall (c := '<') (by decide) (by decide) negative)
  unfold kindOfChars?
  simp [hnumeric, hends, isHex_signedText hall, hpoint, hshift]

end Digits

theorem kindOfChars?_of_digits? {digits : List Char} {value : Nat}
    (h : Text.digits? digits = some value) (negative : Bool) :
    kindOfChars? (signedText negative digits) = decimalKind? negative value := by
  obtain ⟨hne, hall⟩ := Text.digits?_eq_some h
  rw [kindOfChars?_signedText hall hne]
  cases negative with
  | false =>
    change (if (Text.unsigned? Text.maxUInt32 digits).isSome then some Kind.uint
      else if (Text.signed? Text.minInt32 Text.maxInt32 digits).isSome then some .int else none) = _
    rw [Text.unsigned?_of_digits? h, Text.signed?_of_digits? h]
    by_cases hvalue : value ≤ Text.maxUInt32
    · simp [decimalKind?, hvalue]
    · have hlarge : ¬ (value : Int) ≤ Text.maxInt32 := by
        unfold Text.maxUInt32 at hvalue
        unfold Text.maxInt32
        omega
      simp [decimalKind?, hvalue, hlarge]
  | true =>
    change (if (Text.unsigned? Text.maxUInt32 ('-' :: digits)).isSome then some Kind.uint
      else if (Text.signed? Text.minInt32 Text.maxInt32 ('-' :: digits)).isSome then some .int
      else none) = _
    rw [Text.unsigned?_minus, Text.signed?_minus h]
    have hrange : Text.minInt32 ≤ -(value : Int) ∧ -(value : Int) ≤ Text.maxInt32 ↔
        value ≤ 0x80000000 := by
      unfold Text.minInt32 Text.maxInt32
      omega
    by_cases hvalue : value ≤ 0x80000000 <;> simp [decimalKind?, hrange, hvalue]

end Literal

end HeaderInterop
