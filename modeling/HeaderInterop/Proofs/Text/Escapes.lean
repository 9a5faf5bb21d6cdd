import HeaderInterop.Proofs.Text.Numerals

/-!
The text between the quotes of a string literal. It is a row of characters and escapes, and an
escape takes in the characters right behind it that belong to it: a hexadecimal one any number of
digits, and an octal one up to three in all. So a text behind one that ends in an escape may stand
for fewer bytes than by itself.
-/

namespace HeaderInterop.StringLiteral

/-! Characters and escapes -/

/-- How many hexadecimal digits a letter marks as the code of a character. -/
def codeLength? (mark : Char) : Option Nat :=
  if mark = 'u' then some 4 else if mark = 'U' then some 8 else none

/-- Whether an escape, without its backslash, takes in a character that comes right behind it. -/
def escapeTakes (escape : List Char) (next : Char) : Bool :=
  match escape with
  | [] => true
  | c :: digits =>
    if c = 'x' then Text.isDigitOf 16 next
    else
      match codeLength? c with
      | some count => digits.length < count && Text.isDigitOf 16 next
      | none => digits.length < 2 && (c :: digits ++ [next]).all (Text.isDigitOf 8)

/-- Whether a character or an escape takes in a character that comes right behind it. -/
def takes (unit : List Char) (next : Char) : Bool :=
  match unit with
  | [] => false
  | c :: escape => c == '\\' && escapeTakes escape next

/-- The character or escape that begins with `unit`, and those behind it. -/
def unitsFrom (unit : List Char) : List Char → List (List Char)
  | [] => [unit]
  | c :: rest => if takes unit c then unitsFrom (unit ++ [c]) rest else unit :: unitsFrom [c] rest

/-- The characters and escapes of a text. -/
def units : List Char → List (List Char)
  | [] => []
  | c :: rest => unitsFrom [c] rest

/-- The byte that a single letter or mark behind a backslash stands for. -/
def simpleEscapes : List (List Char × UInt8) :=
  [(['\''], 39), (['"'], 34), (['?'], 63), (['\\'], 92), (['a'], 7), (['b'], 8), (['f'], 12),
   (['n'], 10), (['r'], 13), (['t'], 9), (['v'], 11)]

/-- The byte whose number digits spell. -/
def byte? (base : Nat) (digits : List Char) : Option UInt8 :=
  ((Text.inBase? base digits).filter (· < 256)).map UInt8.ofNat

/-- The bytes of the character whose code digits spell. -/
def codeBytes? (digits : List Char) : Option (List UInt8) :=
  ((Text.inBase? 16 digits).filter fun n => n.isValidChar).map fun n =>
    String.utf8EncodeChar (Char.ofNat n)

/-- The bytes that an escape, without its backslash, stands for. -/
def escapeBytes? (escape : List Char) : Option (List UInt8) :=
  match escape with
  | [] => none
  | c :: digits =>
    if c = 'x' then (byte? 16 digits).map ([·])
    else
      match codeLength? c with
      | some count => if digits.length = count then codeBytes? digits else none
      | none => ((simpleEscapes.lookup (c :: digits)).or (byte? 8 (c :: digits))).map ([·])

/-- The bytes that a character or an escape stands for. Neither a quote nor the end of a line is in
the text of a literal by itself. -/
def unitBytes? (unit : List Char) : Option (List UInt8) :=
  match unit with
  | [] => none
  | c :: escape =>
    if c = '\\' then escapeBytes? escape
    else if c = '"' ∨ c = '\n' ∨ escape ≠ [] then none
    else some (String.utf8EncodeChar c)

def unitsBytes? : List (List Char) → Option (List UInt8)
  | [] => some []
  | unit :: rest => (unitBytes? unit).bind fun first => (unitsBytes? rest).map (first ++ ·)

/-- The bytes that the text between the quotes of a literal stands for. -/
def decode? (text : List Char) : Option (List UInt8) :=
  unitsBytes? (units text)

/-- The last character or escape of a text. -/
def lastUnit (text : List Char) : List Char :=
  (units text).getLast?.getD []

theorem unitsBytes?_append (front back : List (List Char)) :
    unitsBytes? (front ++ back) =
      (unitsBytes? front).bind fun bytes => (unitsBytes? back).map (bytes ++ ·) := by
  induction front with
  | nil => simp [unitsBytes?]
  | cons unit rest ih =>
    rw [List.cons_append, unitsBytes?, unitsBytes?, ih]
    cases unitBytes? unit with
    | none => rfl
    | some first =>
      cases unitsBytes? rest with
      | none => rfl
      | some bytes => simp [Option.map_map, Function.comp_def]

theorem unitsBytes?_append_eq_some (front : List (List Char)) {back : List (List Char)}
    {bytes : List UInt8} (h : unitsBytes? (front ++ back) = some bytes) :
    ∃ first others, unitsBytes? front = some first ∧ unitsBytes? back = some others ∧
      bytes = first ++ others := by
  rw [unitsBytes?_append] at h
  obtain ⟨first, hfirst, hrest⟩ := Option.bind_eq_some_iff.mp h
  obtain ⟨others, hothers, rfl⟩ := Option.map_eq_some_iff.mp hrest
  exact ⟨first, others, hfirst, hothers, rfl⟩

theorem unitsBytes?_singleton (unit : List Char) : unitsBytes? [unit] = unitBytes? unit := by
  simp [unitsBytes?]

/-! Texts side by side -/

/-- What comes behind a text is read from its last character or escape on. -/
theorem unitsFrom_append (unit front rest : List Char) :
    ∃ before last, unitsFrom unit front = before ++ [last] ∧
      unitsFrom unit (front ++ rest) = before ++ unitsFrom last rest := by
  induction front generalizing unit with
  | nil => exact ⟨[], unit, rfl, rfl⟩
  | cons c front ih =>
    rw [List.cons_append, unitsFrom, unitsFrom]
    split
    · exact ih (unit ++ [c])
    · obtain ⟨before, last, hfront, hwhole⟩ := ih [c]
      exact ⟨unit :: before, last, by rw [hfront]; rfl, by rw [hwhole]; rfl⟩

theorem units_append {front : List Char} (hne : front ≠ []) (rest : List Char) :
    ∃ before, units front = before ++ [lastUnit front] ∧
      units (front ++ rest) = before ++ unitsFrom (lastUnit front) rest := by
  obtain ⟨c, tail, rfl⟩ := List.exists_cons_of_ne_nil hne
  obtain ⟨before, last, hfront, hwhole⟩ := unitsFrom_append [c] tail rest
  have hlast : lastUnit (c :: tail) = last := by
    rw [lastUnit, units, hfront, List.getLast?_concat, Option.getD_some]
  rw [hlast]
  exact ⟨before, hfront, hwhole⟩

theorem unitsFrom_of_apart {unit rest : List Char}
    (h : ∀ next ∈ rest.head?, takes unit next = false) :
    unitsFrom unit rest = unit :: units rest := by
  cases rest with
  | nil => rfl
  | cons c rest => rw [unitsFrom, h c rfl, if_neg Bool.false_ne_true, units]

/-- A text whose last escape takes in nothing is read by itself. -/
theorem decode?_append_of_apart {front rest : List Char}
    (h : ∀ next ∈ rest.head?, takes (lastUnit front) next = false) :
    decode? (front ++ rest) =
      (decode? front).bind fun bytes => (decode? rest).map (bytes ++ ·) := by
  by_cases hne : front = []
  · subst hne
    simp [decode?, units, unitsBytes?]
  · obtain ⟨before, hfront, hwhole⟩ := units_append hne rest
    have hunits : units (front ++ rest) = units front ++ units rest := by
      rw [hwhole, unitsFrom_of_apart h, hfront, List.append_assoc, List.singleton_append]
    rw [decode?, hunits, unitsBytes?_append]
    rfl

/-! Escapes in digits -/

/-- An escape in digits, without its backslash. -/
inductive IsNumeric : List Char → Prop
  | hexadecimal (digits : List Char) : IsNumeric ('x' :: digits)
  | octal {c : Char} {digits : List Char}
      (hdigits : (c :: digits).all (Text.isDigitOf 8) = true) : IsNumeric (c :: digits)

theorem ne_of_isDigitOf {base : Nat} {c d : Char} (hc : Text.isDigitOf base c = true)
    (hd : Text.isDigitOf base d = false) : c ≠ d := by
  rintro rfl
  rw [hc] at hd
  cases hd

theorem codeLength?_of_isDigitOf {c : Char} (h : Text.isDigitOf 8 c = true) :
    codeLength? c = none := by
  rw [codeLength?, if_neg (ne_of_isDigitOf h (by decide)), if_neg (ne_of_isDigitOf h (by decide))]

/-- Only an escape in digits that stands for bytes takes in more. -/
theorem isNumeric_of_escapeTakes {escape : List Char} {next : Char} {bytes : List UInt8}
    (hbytes : escapeBytes? escape = some bytes) (htakes : escapeTakes escape next = true) :
    IsNumeric escape := by
  cases escape with
  | nil => cases hbytes
  | cons c digits =>
    rw [escapeBytes?] at hbytes
    rw [escapeTakes] at htakes
    by_cases hx : c = 'x'
    · subst hx
      exact IsNumeric.hexadecimal digits
    rw [if_neg hx] at hbytes htakes
    cases hcode : codeLength? c with
    | some count =>
      simp only [hcode] at hbytes htakes
      split at hbytes
      next hlength => simp [hlength] at htakes
      next => cases hbytes
    | none =>
      simp only [hcode, List.all_append] at htakes
      exact IsNumeric.octal (Bool.and_eq_true_iff.mp (Bool.and_eq_true_iff.mp htakes).2).1

/-- Behind a lone backslash comes anything, and behind more of an escape only digits. -/
theorem isDigitOf_of_escapeTakes {escape : List Char} {next : Char}
    (h : escapeTakes escape next = true) (hne : escape ≠ []) : Text.isDigitOf 16 next = true := by
  obtain ⟨c, digits, rfl⟩ := List.exists_cons_of_ne_nil hne
  rw [escapeTakes] at h
  split at h
  next => exact h
  next =>
    split at h
    next => exact (Bool.and_eq_true_iff.mp h).2
    next =>
      have hall := List.all_eq_true.mp (Bool.and_eq_true_iff.mp h).2 next (by simp)
      obtain ⟨value, hvalue⟩ := Option.isSome_iff_exists.mp hall
      exact Text.forall_digitInBase? (p := fun c => Text.isDigitOf 16 c = true) (by decide) hvalue

namespace IsNumeric

variable {escape : List Char} (h : IsNumeric escape)
include h

theorem ne_nil : escape ≠ [] := by
  cases h <;> exact List.cons_ne_nil _ _

/-- It stands for one byte. -/
theorem length_of_escapeBytes? {bytes : List UInt8} (hbytes : escapeBytes? escape = some bytes) :
    bytes.length = 1 := by
  cases h with
  | hexadecimal digits =>
    obtain ⟨byte, -, rfl⟩ := Option.map_eq_some_iff.mp hbytes
    rfl
  | octal hdigits =>
    have hc := List.all_eq_true.mp hdigits _ List.mem_cons_self
    rw [escapeBytes?, if_neg (ne_of_isDigitOf hc (by decide)),
      codeLength?_of_isDigitOf hc] at hbytes
    obtain ⟨byte, -, rfl⟩ := Option.map_eq_some_iff.mp hbytes
    rfl

/-- With a digit that it takes in it is one again. -/
theorem append_of_escapeTakes {next : Char} (htakes : escapeTakes escape next = true) :
    IsNumeric (escape ++ [next]) := by
  cases h with
  | hexadecimal digits => exact IsNumeric.hexadecimal (digits ++ [next])
  | octal hdigits =>
    have hc := List.all_eq_true.mp hdigits _ List.mem_cons_self
    rw [escapeTakes, if_neg (ne_of_isDigitOf hc (by decide)),
      codeLength?_of_isDigitOf hc] at htakes
    exact IsNumeric.octal (Bool.and_eq_true_iff.mp htakes).2

end IsNumeric

theorem takes_escape (escape : List Char) (next : Char) :
    takes ('\\' :: escape) next = escapeTakes escape next :=
  rfl

/-- A digit is a character by itself. -/
theorem decode?_digit {c : Char} (hc : Text.isDigitOf 16 c = true) (rest : List Char) :
    decode? (c :: rest) = (decode? rest).map (String.utf8EncodeChar c ++ ·) := by
  have hescape : c ≠ '\\' := ne_of_isDigitOf hc (by decide)
  have hquote : c ≠ '"' := ne_of_isDigitOf hc (by decide)
  have hline : c ≠ '\n' := ne_of_isDigitOf hc (by decide)
  have hapart : ∀ next ∈ rest.head?, takes [c] next = false := by
    intro next _
    simp [takes, hescape]
  rw [decode?, units, unitsFrom_of_apart hapart, unitsBytes?, unitBytes?]
  simp [hescape, hquote, hline, decode?]

/-- What is read behind an escape in digits is as long as if nothing were taken in, or shorter. Each
digit that is taken in would have been a byte at least. -/
theorem length_le_of_isNumeric {escape rest : List Char} (h : IsNumeric escape)
    {bytes : List UInt8} (hbytes : unitsBytes? (unitsFrom ('\\' :: escape) rest) = some bytes) :
    ∃ others, decode? rest = some others ∧ bytes.length ≤ 1 + others.length ∧
      ((∃ next ∈ rest.head?, escapeTakes escape next = true) → bytes.length ≤ others.length) := by
  induction rest generalizing escape bytes with
  | nil =>
    rw [unitsFrom, unitsBytes?_singleton] at hbytes
    have hlength := h.length_of_escapeBytes? hbytes
    exact ⟨[], rfl, Nat.le_of_eq hlength, by simp⟩
  | cons c rest ih =>
    cases htakes : escapeTakes escape c with
    | true =>
      have hdigit := isDigitOf_of_escapeTakes htakes h.ne_nil
      rw [unitsFrom, takes_escape, htakes, if_pos rfl, List.cons_append] at hbytes
      obtain ⟨others, hothers, hle, -⟩ := ih (h.append_of_escapeTakes htakes) hbytes
      have hpos : 0 < (String.utf8EncodeChar c).length := by
        rw [String.length_utf8EncodeChar]
        exact c.utf8Size_pos
      have hfewer : bytes.length ≤ (String.utf8EncodeChar c ++ others).length := by
        rw [List.length_append]
        omega
      refine ⟨String.utf8EncodeChar c ++ others, ?_, Nat.le_add_left_of_le hfewer, fun _ => hfewer⟩
      rw [decode?_digit hdigit, hothers, Option.map_some]
    | false =>
      rw [unitsFrom, takes_escape, htakes, if_neg Bool.false_ne_true] at hbytes
      obtain ⟨first, others, hfirst, hothers, rfl⟩ :=
        unitsBytes?_append_eq_some ['\\' :: escape] hbytes
      rw [unitsBytes?_singleton] at hfirst
      have hlength := h.length_of_escapeBytes? hfirst
      refine ⟨others, hothers, Nat.le_of_eq (by rw [List.length_append, hlength]), ?_⟩
      rintro ⟨next, hnext, hnot⟩
      obtain rfl : c = next := Option.some.inj hnext
      rw [htakes] at hnot
      cases hnot

theorem exists_escape_of_takes {unit : List Char} {next : Char} {bytes : List UInt8}
    (hbytes : unitBytes? unit = some bytes) (htakes : takes unit next = true) :
    ∃ escape, unit = '\\' :: escape ∧ IsNumeric escape := by
  cases unit with
  | nil => cases htakes
  | cons c escape =>
    obtain ⟨hc, hescape⟩ := Bool.and_eq_true_iff.mp htakes
    obtain rfl : c = '\\' := of_decide_eq_true hc
    exact ⟨escape, rfl, isNumeric_of_escapeTakes hbytes hescape⟩

/-- A text behind another one stands for its bytes, or for fewer if digits of it are taken in. -/
theorem length_le_of_decode?_append {front rest : List Char} {first bytes : List UInt8}
    (hfirst : decode? front = some first) (hbytes : decode? (front ++ rest) = some bytes) :
    ∃ others, decode? rest = some others ∧ bytes.length ≤ first.length + others.length ∧
      ((∃ next ∈ rest.head?, takes (lastUnit front) next = true) →
        bytes.length < first.length + others.length) := by
  by_cases htakes : ∃ next ∈ rest.head?, takes (lastUnit front) next = true
  · obtain ⟨next, hnext, hlast⟩ := htakes
    have hne : front ≠ [] := by
      rintro rfl
      cases hlast
    obtain ⟨before, hfront, hwhole⟩ := units_append hne rest
    rw [decode?, hfront] at hfirst
    rw [decode?, hwhole] at hbytes
    obtain ⟨start, unit, hstart, hunit, rfl⟩ := unitsBytes?_append_eq_some before hfirst
    obtain ⟨start', tail, hstart', htail, rfl⟩ := unitsBytes?_append_eq_some before hbytes
    obtain rfl : start = start' := Option.some.inj (hstart.symm.trans hstart')
    rw [unitsBytes?_singleton] at hunit
    obtain ⟨escape, hescape, hnumeric⟩ := exists_escape_of_takes hunit hlast
    rw [hescape] at hlast hunit htail
    obtain ⟨others, hothers, hle, hlt⟩ := length_le_of_isNumeric hnumeric htail
    have hlength := hnumeric.length_of_escapeBytes? hunit
    have htaken := hlt ⟨next, hnext, hlast⟩
    have hfewer : (start ++ tail).length < (start ++ unit).length + others.length := by
      rw [List.length_append, List.length_append]
      omega
    exact ⟨others, hothers, Nat.le_of_lt hfewer, fun _ => hfewer⟩
  · have hapart : ∀ next ∈ rest.head?, takes (lastUnit front) next = false := by
      simpa using htakes
    rw [decode?_append_of_apart hapart, hfirst] at hbytes
    obtain ⟨others, hothers, rfl⟩ := Option.map_eq_some_iff.mp hbytes
    exact ⟨others, hothers, Nat.le_of_eq List.length_append, fun h => absurd h htakes⟩

end HeaderInterop.StringLiteral
