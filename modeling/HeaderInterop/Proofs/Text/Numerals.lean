import HeaderInterop.Text.Lines
import HeaderInterop.Text.Numeral

/-!
Digits and endings of texts. Digits are read as a decimal whatever base they are of, and the decimal
is not below their value in a smaller base; an ending is told from the last characters.
-/

namespace HeaderInterop.Text

theorem endsWith_eq_true_iff {part text : List Char} : endsWith part text = true ↔ part <:+ text :=
  List.isSuffixOf_iff_suffix

/-- An ending no longer than the back is one of the back. -/
theorem endsWith_append_of_length_le {part back : List Char} (h : part.length ≤ back.length)
    (front : List Char) : endsWith part (front ++ back) = endsWith part back := by
  rw [Bool.eq_iff_iff, endsWith_eq_true_iff, endsWith_eq_true_iff]
  constructor
  · intro hpart
    exact List.suffix_of_suffix_length_le hpart (List.suffix_append front back) h
  · intro hpart
    exact hpart.trans (List.suffix_append front back)

/-- An ending that has not the last character of the front in it is one of the back. -/
theorem endsWith_append_of_notMem {part front : List Char}
    (hlast : ∀ c ∈ front.getLast?, c ∉ part) (back : List Char) :
    endsWith part (front ++ back) = endsWith part back := by
  rcases Nat.le_total part.length back.length with hle | hle
  · exact endsWith_append_of_length_le hle front
  rw [Bool.eq_iff_iff, endsWith_eq_true_iff, endsWith_eq_true_iff]
  constructor
  · intro hends
    obtain ⟨inner, rfl⟩ :=
      List.suffix_of_suffix_length_le (List.suffix_append front back) hends hle
    obtain ⟨before, hbefore⟩ := hends
    rw [← List.append_assoc, List.append_cancel_right_eq] at hbefore
    cases hinner : inner.getLast? with
    | none =>
      obtain rfl : inner = [] := List.getLast?_eq_none_iff.mp hinner
      exact List.suffix_rfl
    | some c =>
      have hfront : front.getLast? = some c := by
        rw [← hbefore, List.getLast?_append, hinner, Option.some_or]
      have hmem : c ∈ inner := List.mem_of_getLast? hinner
      exact absurd (List.mem_append_left back hmem) (hlast c hfront)
  · intro hends
    exact hends.trans (List.suffix_append front back)

theorem endsWith_eq_false_of_notMem {part text : List Char} (hpart : part ≠ [])
    (hlast : ∀ c ∈ text.getLast?, c ∉ part) : endsWith part text = false := by
  have hends := endsWith_append_of_notMem hlast []
  rw [List.append_nil] at hends
  rw [hends, Bool.eq_false_iff, Ne, endsWith_eq_true_iff, List.suffix_nil]
  exact hpart

/-- The characters of a closed range are among those that its codes are listed for. -/
theorem mem_of_codes {low high : Nat} {chars : List Char}
    (h : ∀ n ≤ high, low ≤ n → Char.ofNat n ∈ chars) {c : Char} (hlow : low ≤ c.toNat)
    (hhigh : c.toNat ≤ high) : c ∈ chars := by
  have hmem := h c.toNat hhigh hlow
  rwa [Char.ofNat_toNat] at hmem

theorem mem_of_isDigit {c : Char} (h : c.isDigit = true) : c ∈ "0123456789".toList := by
  simp only [Char.isDigit, Bool.and_eq_true, decide_eq_true_eq, UInt32.le_iff_toNat_le] at h
  exact mem_of_codes (by decide) h.1 h.2

/-- A property of the decimal digits is checked on each of them. -/
theorem forall_isDigit {p : Char → Prop} [DecidablePred p]
    (h : ("0123456789".toList.all fun c => p c) = true) {c : Char} (hc : c.isDigit = true) : p c :=
  of_decide_eq_true (List.all_eq_true.mp h c (mem_of_isDigit hc))

theorem digits?_eq_some {digits : List Char} {value : Nat} (h : digits? digits = some value) :
    digits ≠ [] ∧ digits.all Char.isDigit = true := by
  rw [digits?] at h
  split at h
  next hdigits =>
    obtain ⟨hne, hall⟩ := Bool.and_eq_true_iff.mp hdigits
    exact ⟨by simpa using hne, hall⟩
  next => cases h

/-- Digits are read as they are: no sign is in front of them. -/
theorem unsigned?_of_digits? {digits : List Char} {value : Nat} (h : digits? digits = some value)
    (limit : Nat) : unsigned? limit digits = if value ≤ limit then some value else none := by
  obtain ⟨hne, hall⟩ := digits?_eq_some h
  unfold unsigned?
  split
  next rest => simp at hall
  next => simp [h, Option.filter_some]

theorem unsigned?_minus (limit : Nat) (digits : List Char) : unsigned? limit ('-' :: digits) = none := by
  simp [unsigned?, digits?]

theorem signed?_of_digits? {digits : List Char} {value : Nat} (h : digits? digits = some value)
    (low high : Int) :
    signed? low high digits = if low ≤ value ∧ value ≤ high then some (value : Int) else none := by
  obtain ⟨hne, hall⟩ := digits?_eq_some h
  unfold signed?
  split
  next rest => simp at hall
  next rest => simp at hall
  next => simp [h, Option.filter_some]

theorem signed?_minus {digits : List Char} {value : Nat} (h : digits? digits = some value)
    (low high : Int) :
    signed? low high ('-' :: digits) =
      if low ≤ -(value : Int) ∧ -(value : Int) ≤ high then some (-(value : Int)) else none := by
  simp [signed?, h, Option.filter_some]

theorem contains_eq_false_of_notMem {c : Char} {part text : List Char} (h : c ∉ text) :
    contains (c :: part) text = false := by
  induction text with
  | nil => rfl
  | cons d text ih =>
    obtain ⟨hne, hrest⟩ := not_or.mp (mt List.mem_cons.mpr h)
    simp [contains, List.isPrefixOf, hne, ih hrest]

theorem lowerAscii_append (front back : List Char) :
    lowerAscii (front ++ back) = lowerAscii front ++ lowerAscii back :=
  List.map_append

theorem getLast?_lowerAscii (text : List Char) :
    (lowerAscii text).getLast? = text.getLast?.map Char.toLower :=
  List.getLast?_map


/-! Digits of a base -/

def isDigitOf (base : Nat) (c : Char) : Bool :=
  (digitInBase? base c).isSome

/-- A digit of a base is a decimal digit, or a letter that stands for ten or more. -/
theorem digitInBase?_eq_some {base d : Nat} {c : Char} (h : digitInBase? base c = some d) :
    d < base ∧ (c.isDigit = true ∧ d = digitValue c ∨ c ∈ "abcdefABCDEF".toList ∧ 10 ≤ d) := by
  obtain ⟨hvalue, hlt⟩ := Option.filter_eq_some_iff.mp h
  refine ⟨of_decide_eq_true hlt, ?_⟩
  split at hvalue
  next hdigit => exact Or.inl ⟨hdigit, (Option.some.inj hvalue).symm⟩
  next =>
    right
    split at hvalue
    next hsmall =>
      have hleast : 97 ≤ c.toNat := hsmall.1
      have hmost : c.toNat ≤ 102 := hsmall.2
      exact ⟨mem_of_codes (by decide) hleast hmost,
        by rw [← Option.some.inj hvalue]; omega⟩
    next =>
      split at hvalue
      next hcapital =>
        have hleast : 65 ≤ c.toNat := hcapital.1
        have hmost : c.toNat ≤ 70 := hcapital.2
        exact ⟨mem_of_codes (by decide) hleast hmost,
          by rw [← Option.some.inj hvalue]; omega⟩
      next => cases hvalue

/-- A property of the hexadecimal digits is checked on each of them. -/
theorem forall_digitInBase? {p : Char → Prop} [DecidablePred p]
    (h : ("0123456789abcdefABCDEF".toList.all fun c => p c) = true) {base d : Nat} {c : Char}
    (hc : digitInBase? base c = some d) : p c := by
  refine of_decide_eq_true (List.all_eq_true.mp h c ?_)
  rcases (digitInBase?_eq_some hc).2 with ⟨hdigit, -⟩ | ⟨hletter, -⟩
  · exact List.mem_append_left "abcdefABCDEF".toList (mem_of_isDigit hdigit)
  · exact List.mem_append_right "0123456789".toList hletter

theorem isDigit_of_digitInBase? {base d : Nat} (hbase : base ≤ 10) {c : Char}
    (hc : digitInBase? base c = some d) : c.isDigit = true ∧ d = digitValue c := by
  obtain ⟨hlt, hdigit | ⟨-, hten⟩⟩ := digitInBase?_eq_some hc
  · exact hdigit
  · omega

/-- The number that digits spell behind those of a number. -/
def inBaseFrom? (base start : Nat) (digits : List Char) : Option Nat :=
  digits.foldlM (fun n c => (digitInBase? base c).map (base * n + ·)) start

theorem inBase?_eq_some {base n : Nat} {digits : List Char} (h : inBase? base digits = some n) :
    digits ≠ [] ∧ inBaseFrom? base 0 digits = some n := by
  rw [inBase?] at h
  split at h
  next => cases h
  next hne => exact ⟨by simpa using hne, h⟩

theorem inBaseFrom?_cons {base start n : Nat} {c : Char} {rest : List Char}
    (h : inBaseFrom? base start (c :: rest) = some n) :
    ∃ d, digitInBase? base c = some d ∧ inBaseFrom? base (base * start + d) rest = some n := by
  rw [inBaseFrom?, List.foldlM_cons] at h
  obtain ⟨next, hnext, hrest⟩ := Option.bind_eq_some_iff.mp h
  obtain ⟨d, hd, rfl⟩ := Option.map_eq_some_iff.mp hnext
  exact ⟨d, hd, hrest⟩

theorem exists_digit_of_inBaseFrom? {base start n : Nat} {digits : List Char}
    (h : inBaseFrom? base start digits = some n) :
    ∀ c ∈ digits, ∃ d, digitInBase? base c = some d := by
  induction digits generalizing start with
  | nil => exact List.forall_mem_nil _
  | cons c rest ih =>
    obtain ⟨d, hd, hrest⟩ := inBaseFrom?_cons h
    exact List.forall_mem_cons.mpr ⟨⟨d, hd⟩, ih hrest⟩

theorem isSome_inBaseFrom? {base : Nat} {digits : List Char}
    (h : ∀ c ∈ digits, (digitInBase? base c).isSome = true) (start : Nat) :
    (inBaseFrom? base start digits).isSome = true := by
  induction digits generalizing start with
  | nil => rfl
  | cons c rest ih =>
    obtain ⟨hc, hrest⟩ := List.forall_mem_cons.mp h
    obtain ⟨d, hd⟩ := Option.isSome_iff_exists.mp hc
    rw [inBaseFrom?, List.foldlM_cons, hd]
    exact ih hrest (base * start + d)

theorem isSome_inBase? {base : Nat} {digits : List Char} (hne : digits ≠ [])
    (h : ∀ c ∈ digits, (digitInBase? base c).isSome = true) :
    (inBase? base digits).isSome = true := by
  rw [inBase?, if_neg (by simpa using hne)]
  exact isSome_inBaseFrom? h 0

/-- What every digit keeps relates a number to the decimal that its digits spell. -/
theorem inBaseFrom?_related {base n start decimal : Nat} {digits : List Char}
    {r : Nat → Nat → Prop} (h : inBaseFrom? base start digits = some n)
    (hstart : r start decimal)
    (hstep : ∀ value decimal c d, r value decimal → digitInBase? base c = some d →
      r (base * value + d) (10 * decimal + digitValue c)) :
    r n (digits.foldl (fun n c => 10 * n + digitValue c) decimal) := by
  induction digits generalizing start decimal with
  | nil =>
    obtain rfl : start = n := Option.some.inj h
    exact hstart
  | cons c rest ih =>
    obtain ⟨d, hd, hrest⟩ := inBaseFrom?_cons h
    exact ih hrest (hstep start decimal c d hstart hd)

theorem digits?_of_inBase? {base n : Nat} (hbase : base ≤ 10) {digits : List Char}
    (h : inBase? base digits = some n) : digits? digits = some (digitsValue digits) := by
  obtain ⟨hne, hfold⟩ := inBase?_eq_some h
  have hall : digits.all Char.isDigit = true := by
    rw [List.all_eq_true]
    intro c hc
    obtain ⟨d, hd⟩ := exists_digit_of_inBaseFrom? hfold c hc
    exact (isDigit_of_digitInBase? hbase hd).1
  rw [digits?, hall, Bool.and_true, if_pos (by simpa using hne)]

theorem digitsValue_of_inBase?_ten {n : Nat} {digits : List Char} (h : inBase? 10 digits = some n) :
    digitsValue digits = n := by
  refine (inBaseFrom?_related (r := Eq) (inBase?_eq_some h).2 rfl ?_).symm
  rintro value _ c d rfl hd
  rw [(isDigit_of_digitInBase? (Nat.le_refl 10) hd).2]

/-- Decimal digits spell their value, with zeros in front of them or not. -/
theorem inBase?_ten_of_digits? {digits : List Char} {value : Nat}
    (h : digits? digits = some value) : inBase? 10 digits = some (digitsValue digits) := by
  obtain ⟨hne, hall⟩ := digits?_eq_some h
  have hdigits : ∀ c ∈ digits, (digitInBase? 10 c).isSome = true := fun c hc =>
    forall_isDigit (p := fun c => (digitInBase? 10 c).isSome = true) (by decide)
      (List.all_eq_true.mp hall c hc)
  obtain ⟨n, hn⟩ := Option.isSome_iff_exists.mp (isSome_inBase? hne hdigits)
  rw [hn, digitsValue_of_inBase?_ten hn]

/-- A number of one octal digit is that digit, and any other is below what its digits spell as a
decimal. -/
theorem digitsValue_of_inBase?_eight {n : Nat} {digits : List Char} (h : inBase? 8 digits = some n) :
    n = digitsValue digits ∧ n < 8 ∨ 8 ≤ n ∧ n < digitsValue digits := by
  refine inBaseFrom?_related (r := fun n decimal => n = decimal ∧ n < 8 ∨ 8 ≤ n ∧ n < decimal)
    (inBase?_eq_some h).2 (Or.inl ⟨rfl, by omega⟩) ?_
  intro value decimal c d hrelated hd
  have hdigit := (isDigit_of_digitInBase? (show 8 ≤ 10 by omega) hd).2
  have hlt := (digitInBase?_eq_some hd).1
  omega

end HeaderInterop.Text
