import HeaderInterop.Proofs.Constant.Kinds
import HeaderInterop.Proofs.Text.Fractions

/-!
Numbers with a letter of a name in them. Where the letter is hardly matters: it ends the sign, the
point and the digits that make a text numeric, no shift goes across it, and no number in decimal
digits has it. It counts as the mark of a base behind the first digit, as the mark of an exponent,
and as a suffix at the end.
-/

namespace HeaderInterop

namespace Text

theorem isDigit_eq_false_of_isWordStart {c : Char} (hc : isWordStart c = true) :
    c.isDigit = false := by
  rw [← Bool.not_eq_true]
  intro hdigit
  have hnot : isWordStart c = false :=
    forall_isDigit (p := fun c => isWordStart c = false) (by decide) hdigit
  rw [hc] at hnot
  cases hnot

theorem ne_of_isWordStart {c d : Char} (hc : isWordStart c = true) (hd : isWordStart d = false) :
    c ≠ d := by
  rintro rfl
  rw [hc] at hd
  cases hd

/-- A letter in a fraction with a point is the mark of its exponent. -/
theorem isFraction_append_letter_iff {c : Char} (hc : isWordStart c = true)
    (front rest : List Char) :
    (isFraction (front ++ c :: rest) = true ∧ '.' ∈ front ++ c :: rest) ↔
      IsPointed front ∧ (c = 'e' ∨ c = 'E') ∧ (digits? (dropSign rest)).isSome = true :=
  isFraction_append_cons_iff (isDigit_eq_false_of_isWordStart hc)
    (ne_of_isWordStart hc (by decide))
    ⟨ne_of_isWordStart hc (by decide), ne_of_isWordStart hc (by decide)⟩ front rest

/-- Digits behind a letter and a sign have no letter in them. -/
theorem notMem_of_isSome_digits? {cs : List Char}
    (h : (digits? (dropSign cs)).isSome = true) {c : Char}
    (hc : isWordStart c = true) : c ∉ cs := by
  intro hmem
  have hsign : c ≠ '+' ∧ c ≠ '-' :=
    ⟨ne_of_isWordStart hc (by decide), ne_of_isWordStart hc (by decide)⟩
  rw [digits?_dropSign_eq_none hmem (isDigit_eq_false_of_isWordStart hc) hsign] at h
  cases h

/-- A number with a point and no exponent has no letter in it. -/
theorem IsPointed.notMem {value : List Char} (h : IsPointed value) {c : Char}
    (hc : isWordStart c = true) : c ∉ value := by
  intro hmem
  obtain ⟨front, rest, rfl⟩ := List.append_of_mem hmem
  obtain ⟨-, hmark, -⟩ :=
    (isFraction_append_letter_iff hc _ _).mp ⟨h.isFraction_eq, h.mem_point⟩
  rcases hmark with rfl | rfl
  · exact h.small_notMem hmem
  · exact h.capital_notMem hmem

/-- The small letters are those of words, and so are the capital ones. -/
theorem isWordStart_of_toLower {c : Char} (h : c.toLower ∈ ['u', 'l', 'f']) :
    isWordStart c = true := by
  by_cases hcapital : 65 ≤ c.toNat ∧ c.toNat ≤ 90
  · have hmem : c ∈ "ABCDEFGHIJKLMNOPQRSTUVWXYZ".toList :=
      mem_of_codes (by decide) hcapital.1 hcapital.2
    have hall : ("ABCDEFGHIJKLMNOPQRSTUVWXYZ".toList.all isWordStart) = true := by decide
    exact List.all_eq_true.mp hall c hmem
  · have hsmall : c.toLower = c := dif_neg hcapital
    have hall : (['u', 'l', 'f'].all isWordStart) = true := by decide
    rw [hsmall] at h
    exact List.all_eq_true.mp hall c h

/-- What has a character in it that the part has not is no place for the part. -/
theorem isPrefixOf_append_cons {c : Char} {part : List Char} (hc : c ∉ part)
    (front rest : List Char) : part.isPrefixOf (front ++ c :: rest) = part.isPrefixOf front := by
  induction part generalizing front with
  | nil => rw [List.isPrefixOf_nil_left, List.isPrefixOf_nil_left]
  | cons d part ih =>
    obtain ⟨hne, hpart⟩ := not_or.mp (mt List.mem_cons.mpr hc)
    cases front with
    | nil => simp [List.isPrefixOf, Ne.symm hne]
    | cons e front => rw [List.cons_append, List.isPrefixOf, List.isPrefixOf, ih hpart]

theorem contains_append_cons {c : Char} {part : List Char} (hne : part ≠ []) (hc : c ∉ part)
    (front rest : List Char) :
    contains part (front ++ c :: rest) = (contains part front || contains part rest) := by
  induction front with
  | nil =>
    have hprefix := isPrefixOf_append_cons hc [] rest
    rw [List.nil_append] at hprefix ⊢
    rw [contains, contains, hprefix]
    cases part with
    | nil => exact absurd rfl hne
    | cons d part => rfl
  | cons d front ih =>
    have hprefix := isPrefixOf_append_cons hc (d :: front) rest
    rw [List.cons_append] at hprefix ⊢
    rw [contains, contains, hprefix, ih, Bool.or_assoc]

theorem contains_append_of_disjoint {word part : List Char} (hne : part ≠ []) (hword : word ≠ [])
    (h : ∀ c ∈ word, c ∉ part) (front rest : List Char) :
    contains part (front ++ (word ++ rest)) = (contains part front || contains part rest) := by
  induction word generalizing front with
  | nil => exact absurd rfl hword
  | cons c word ih =>
    obtain ⟨hc, hrest⟩ := List.forall_mem_cons.mp h
    rw [List.cons_append, contains_append_cons hne hc]
    cases word with
    | nil => rfl
    | cons d word =>
      have hnone : contains part [] = false := by simpa [contains] using hne
      have hbehind := ih (List.cons_ne_nil d word) hrest []
      rw [List.nil_append] at hbehind
      rw [hbehind, hnone, Bool.false_or]

end Text

namespace Literal

theorem startsWithDigit_append_cons {c : Char} (hc : c.isDigit = false) (front rest : List Char) :
    startsWithDigit (front ++ c :: rest) = startsWithDigit front := by
  cases front with
  | nil => exact hc
  | cons d front => rfl

theorem getD_after?_append_cons {c mark : Char} (hc : c ≠ mark) (front rest : List Char) :
    (Text.after? [mark] (front ++ c :: rest)).getD (front ++ c :: rest) =
      (Text.after? [mark] front).getD front ++ c :: rest := by
  cases front with
  | nil => simp [Text.after?, Ne.symm hc]
  | cons d front =>
    by_cases hd : mark = d <;> simp [Text.after?, hd]

/-- A letter ends what makes a text numeric. -/
theorem isNumeric_append_cons {c : Char} (hc : Text.isWordStart c = true)
    (front rest : List Char) : isNumeric (front ++ c :: rest) = isNumeric front := by
  have hminus : c ≠ '-' := Text.ne_of_isWordStart hc (by decide)
  have hpoint : c ≠ '.' := Text.ne_of_isWordStart hc (by decide)
  unfold isNumeric
  simp only [getD_after?_append_cons hminus, getD_after?_append_cons hpoint]
  exact startsWithDigit_append_cons (Text.isDigit_eq_false_of_isWordStart hc) _ _

theorem isHex_append_of_length_le {front : List Char} (h : 2 ≤ front.length) (rest : List Char) :
    isHex (front ++ rest) = isHex front := by
  match front, h with
  | c :: d :: front, _ => simp [isHex, List.isPrefixOf]

/-- No decimal number has a letter in it. -/
theorem isSome_signed?_of_mem {value : List Char} {c : Char} (hc : Text.isWordStart c = true)
    (hmem : c ∈ value) :
    (Text.unsigned? Text.maxUInt32 value).isSome = false ∧
      (Text.signed? Text.minInt32 Text.maxInt32 value).isSome = false := by
  have hdigit := Text.isDigit_eq_false_of_isWordStart hc
  have hnone {digits : List Char} (hin : c ∈ digits) : Text.digits? digits = none := by
    rw [Text.digits?, if_neg]
    rw [Bool.and_eq_true, not_and, List.all_eq_true]
    intro _ hall
    rw [hall c hin] at hdigit
    cases hdigit
  have hplus : c ≠ '+' := Text.ne_of_isWordStart hc (by decide)
  have hminus : c ≠ '-' := Text.ne_of_isWordStart hc (by decide)
  constructor
  · unfold Text.unsigned?
    split
    next rest => simp [hnone ((List.mem_cons.mp hmem).resolve_left hplus)]
    next => simp [hnone hmem]
  · unfold Text.signed?
    split
    next rest => simp [hnone ((List.mem_cons.mp hmem).resolve_left hplus)]
    next rest => simp [hnone ((List.mem_cons.mp hmem).resolve_left hminus)]
    next => simp [hnone hmem]

/-- The type of a numeric text with a letter in it that has no suffix. -/
def kindOfNoSuffix? (value : List Char) : Option Kind :=
  if isHex value then some .uint
  else if value.contains '.' && Text.isFraction value then some .double
  else if hasShift value then some .int
  else none

theorem kindOfChars?_of_mem {value : List Char} {c : Char} (hnumeric : isNumeric value = true)
    (hc : Text.isWordStart c = true) (hmem : c ∈ value) :
    kindOfChars? value =
      if Text.endsWith ['f'] (Text.lowerAscii value) && !isHex value then some .float
      else (kindOfEnding? (Text.lowerAscii value)).or (kindOfNoSuffix? value) := by
  obtain ⟨hunsigned, hsigned⟩ := isSome_signed?_of_mem hc hmem
  unfold kindOfChars? kindOfEnding? kindOfNoSuffix?
  simp only [hnumeric, hunsigned, hsigned, Bool.not_true, Bool.false_eq_true, if_false,
    Bool.false_or]
  split
  next => rfl
  next =>
    split
    next => rfl
    next =>
      split
      next => rfl
      next => split <;> rfl

end Literal

end HeaderInterop
