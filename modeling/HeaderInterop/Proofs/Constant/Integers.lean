import HeaderInterop.Proofs.Constant.Kinds

/-!
Integer constants of C: their spelling, their value in the first type of their list that holds them,
and the type that is read off the spelling. The type goes by the suffix alone, or by 32 bits where
there is none, so that it is wide enough for some values and not for others.
-/

namespace HeaderInterop.Literal

/-- The integers that a type holds; the others are types of fractions. -/
def Kind.holds (value : Int) : Kind → Prop
  | int => Text.minInt32 ≤ value ∧ value ≤ Text.maxInt32
  | uint => 0 ≤ value ∧ value ≤ Text.maxUInt32
  | long => Text.minInt64 ≤ value ∧ value ≤ Text.maxInt64
  | ulong => 0 ≤ value ∧ value ≤ Text.maxUInt64
  | float => False
  | double => False

/-! Spelling -/

inductive Base where
  | decimal
  | octal
  | hexadecimal (capital : Bool)
deriving DecidableEq, Repr

namespace Base

def radix : Base → Nat
  | decimal => 10
  | octal => 8
  | hexadecimal _ => 16

/-- What stands in front of the digits. The zero of an octal number is one of them. -/
def mark : Base → List Char
  | decimal => []
  | octal => []
  | hexadecimal capital => ['0', if capital then 'X' else 'x']

def isHexadecimal : Base → Bool
  | hexadecimal _ => true
  | _ => false

/-- Whether digits are taken for ones of the base. -/
def startsWith (digits : List Char) : Base → Bool
  | decimal => digits.head? != some '0'
  | octal => digits.head? == some '0'
  | hexadecimal _ => true

end Base

/-- An integer constant with a minus sign in front of it or not. -/
structure IntegerConstant where
  negative : Bool
  base : Base
  digits : List Char
  suffix : Suffix
  /-- The value without the sign. -/
  magnitude : Nat
  reads : Text.inBase? base.radix digits = some magnitude
  starts : base.startsWith digits = true

/-- An integer type by the number of its values. -/
structure IntegerType where
  size : Nat
  signed : Bool

namespace IntegerType

def word32 : Nat := 0x100000000

def word64 : Nat := 0x10000000000000000

/-- Whether a number without a sign is below the upper bound of the type. -/
def holds (type : IntegerType) (magnitude : Nat) : Bool :=
  (if type.signed then 2 * magnitude else magnitude) < type.size

/-- The value of a number that the type holds, behind a minus sign or not. In an unsigned type the
negation wraps around. -/
def value (type : IntegerType) (negative : Bool) (magnitude : Nat) : Int :=
  if !negative then magnitude
  else if type.signed then -(magnitude : Int)
  else -(magnitude : Int) % type.size

theorem value_bounds {type : IntegerType} (hsize : type.size = word32 ∨ type.size = word64)
    {magnitude : Nat} (h : type.holds magnitude = true) (negative : Bool) :
    Text.minInt64 ≤ type.value negative magnitude ∧
      type.value negative magnitude ≤ Text.maxUInt64 ∧
      (negative = false ∨ type.signed = false → 0 ≤ type.value negative magnitude) := by
  obtain ⟨size, signed⟩ := type
  have hlt : (if signed then 2 * magnitude else magnitude) < size := of_decide_eq_true h
  unfold value Text.minInt64 Text.maxUInt64
  obtain rfl | rfl : size = 0x100000000 ∨ size = 0x10000000000000000 := hsize
  all_goals cases signed <;> cases negative <;> simp at hlt ⊢ <;> omega

end IntegerType

namespace IntegerConstant

open IntegerType (word32 word64)

/-- The number as it is spelled, without its sign. -/
def number (x : IntegerConstant) : List Char :=
  x.base.mark ++ x.digits

/-- The constant in as many pairs of parentheses. -/
def text (x : IntegerConstant) (pairs : Nat) : String :=
  String.ofList
    (Macro.inParens pairs (Macro.signedText x.negative (x.number ++ x.suffix.letters)))

/-! Value -/

/-- The sizes of `int`, `long` and `long long`; that of `long` differs between platforms. -/
def sizes (wideLong : Bool) : List Nat :=
  [word32, if wideLong then word64 else word32, word64]

/-- The types that a constant may have, the first that holds it being its type. A decimal without an
unsigned mark has an unsigned type only if no signed one holds it. -/
def types (x : IntegerConstant) (wideLong : Bool) : List IntegerType :=
  let sizes := (sizes wideLong).drop x.suffix.longMark.length
  match x.suffix.unsignedMark, x.base with
  | _ :: _, _ => sizes.map fun size => ⟨size, false⟩
  | [], .decimal => (sizes.map fun size => ⟨size, true⟩) ++ [⟨word64, false⟩]
  | [], _ => sizes.flatMap fun size => [⟨size, true⟩, ⟨size, false⟩]

def value? (x : IntegerConstant) (wideLong : Bool) : Option Int :=
  ((x.types wideLong).find? fun type => type.holds x.magnitude).map fun type =>
    type.value x.negative x.magnitude

/-! Type -/

/-- The type that is read off the spelling. -/
def kind? (x : IntegerConstant) : Option Kind :=
  match x.suffix.kind? with
  | some kind => some kind
  | none =>
    if x.base.isHexadecimal then some .uint
    else decimalKind? x.negative (Text.digitsValue x.digits)

/-- A hexadecimal number without a suffix whose base is not seen behind a minus sign. -/
def isHidden (x : IntegerConstant) : Bool :=
  x.negative && x.base.isHexadecimal && x.suffix.letters.isEmpty

/-- Whether that type is wide enough for the value. -/
def Fits (x : IntegerConstant) (value : Int) : Prop :=
  match x.suffix.unsignedMark, x.suffix.longMark with
  | _ :: _, _ :: _ => True
  | _ :: _, [] => value ≤ Text.maxUInt32
  | [], _ :: _ => value ≤ Text.maxInt64
  | [], [] =>
    if x.base.isHexadecimal then value ≤ Text.maxUInt32
    else Text.digitsValue x.digits ≤ if x.negative then 0x80000000 else Text.maxUInt32

variable {x : IntegerConstant}

theorem forall_mem_digits {p : Char → Prop} [DecidablePred p]
    (h : ("0123456789abcdefABCDEF".toList.all fun c => p c) = true) : ∀ c ∈ x.digits, p c := by
  intro c hc
  obtain ⟨d, hd⟩ := Text.exists_digit_of_inBaseFrom? (Text.inBase?_eq_some x.reads).2 c hc
  exact Text.forall_digitInBase? h hd

theorem digits_ne_nil : x.digits ≠ [] :=
  (Text.inBase?_eq_some x.reads).1

theorem radix_le_ten (h : x.base.isHexadecimal = false) : x.base.radix ≤ 10 := by
  cases hbase : x.base with
  | decimal => decide
  | octal => decide
  | hexadecimal capital =>
    rw [hbase] at h
    cases h

theorem digits?_eq_some (h : x.base.isHexadecimal = false) :
    Text.digits? x.digits = some (Text.digitsValue x.digits) :=
  Text.digits?_of_inBase? (radix_le_ten h) x.reads

theorem number_of_decimal (h : x.base.isHexadecimal = false) : x.number = x.digits := by
  rw [number]
  cases hbase : x.base with
  | decimal => rfl
  | octal => rfl
  | hexadecimal capital =>
    rw [hbase] at h
    cases h

theorem number_of_isHexadecimal (h : x.base.isHexadecimal = true) :
    ∃ mark ∈ ['x', 'X'], x.number = '0' :: mark :: x.digits := by
  rw [number]
  cases hbase : x.base with
  | decimal | octal =>
    rw [hbase] at h
    cases h
  | hexadecimal capital => exact ⟨if capital then 'X' else 'x', by cases capital <;> decide, rfl⟩

theorem startsWithDigit_number : startsWithDigit x.number = true := by
  cases hhex : x.base.isHexadecimal with
  | false =>
    obtain ⟨c, rest, hdigits⟩ := List.exists_cons_of_ne_nil x.digits_ne_nil
    obtain ⟨-, hall⟩ := Text.digits?_eq_some (digits?_eq_some hhex)
    rw [number_of_decimal hhex, hdigits]
    exact List.all_eq_true.mp hall c (hdigits ▸ List.mem_cons_self)
  | true =>
    obtain ⟨mark, -, hnumber⟩ := number_of_isHexadecimal hhex
    rw [hnumber]
    rfl

theorem getLast?_number : x.number.getLast? = x.digits.getLast? := by
  rw [number, List.getLast?_append, List.getLast?_eq_some_getLast x.digits_ne_nil, Option.some_or]

theorem endsInDigit_number : EndsInDigit x.number := by
  intro c hc
  rw [getLast?_number] at hc
  exact forall_mem_digits (p := fun c => c.toLower ≠ 'u' ∧ c.toLower ≠ 'l') (by decide) c
    (List.mem_of_getLast? hc)

theorem all_isAlphanum : (x.number ++ x.suffix.letters).all Char.isAlphanum = true := by
  have hmark : x.base.mark.all Char.isAlphanum = true := by
    cases x.base with
    | decimal | octal => rfl
    | hexadecimal capital => cases capital <;> decide
  have hdigits : x.digits.all Char.isAlphanum = true :=
    List.all_eq_true.mpr (forall_mem_digits (by decide))
  have hletters : ∀ unsignedMark ∈ unsignedMarks, ∀ longMark ∈ longMarks, ∀ longFirst : Bool,
      (suffixLetters unsignedMark longMark longFirst).all Char.isAlphanum = true := by
    decide
  rw [number, List.all_append, List.all_append, hmark, hdigits, Bool.true_and, Bool.true_and]
  exact hletters x.suffix.unsignedMark x.suffix.unsignedMark_mem x.suffix.longMark
    x.suffix.longMark_mem x.suffix.longFirst

theorem kind?_normalize (pairs : Nat) :
    Literal.kind? (normalize (Macro.tokenize (x.text pairs))) =
      kindOfChars? (Macro.signedText x.negative x.number ++ shortened x.suffix.letters) := by
  rw [text, normalize_tokenize_inParens startsWithDigit_number endsInDigit_number all_isAlphanum,
    Literal.kind?, String.toList_ofList]

/-- The type goes by the spelling, but for a minus sign in front of a hexadecimal number. -/
theorem kind?_normalize_eq (h : x.isHidden = false) (pairs : Nat) :
    Literal.kind? (normalize (Macro.tokenize (x.text pairs))) = x.kind? := by
  rw [kind?_normalize]
  by_cases hletters : x.suffix.letters = []
  · have hnone : x.suffix.kind? = none := x.suffix.kind?_eq_none_iff.mpr hletters
    have hkind : x.kind? = if x.base.isHexadecimal then some .uint
        else decimalKind? x.negative (Text.digitsValue x.digits) := by
      rw [kind?, hnone]
    have hshort : shortened x.suffix.letters = [] := by
      rw [hletters]
      rfl
    rw [hkind, hshort, List.append_nil]
    cases hhex : x.base.isHexadecimal with
    | false =>
      rw [number_of_decimal hhex]
      exact kindOfChars?_of_digits? (digits?_eq_some hhex) x.negative
    | true =>
      have hpositive : x.negative = false := by simpa [isHidden, hhex, hletters] using h
      obtain ⟨mark, hmark, hnumber⟩ := number_of_isHexadecimal hhex
      have hprefix : isHex x.number = true := by
        rw [hnumber]
        rcases (by simpa using hmark : mark = 'x' ∨ mark = 'X') with rfl | rfl <;> rfl
      rw [hpositive]
      exact kindOfChars?_of_isHex startsWithDigit_number endsInDigit_number hprefix
  · obtain ⟨kind, hkind⟩ :=
      Option.ne_none_iff_exists'.mp (mt x.suffix.kind?_eq_none_iff.mp hletters)
    rw [kindOfChars?_of_suffix startsWithDigit_number endsInDigit_number x.negative x.suffix hletters,
      kind?, hkind]

theorem mem_sizes {size : Nat} {wideLong : Bool} {n : Nat} (h : size ∈ (sizes wideLong).drop n) :
    size = word32 ∨ size = word64 := by
  have hmem := List.mem_of_mem_drop h
  cases wideLong <;> simpa [sizes] using hmem

/-- The types have 32 or 64 bits, and an unsigned mark leaves unsigned ones only. -/
theorem mem_types {type : IntegerType} {wideLong : Bool} (h : type ∈ x.types wideLong) :
    (type.size = word32 ∨ type.size = word64) ∧
      (x.suffix.unsignedMark ≠ [] → type.signed = false) := by
  unfold types at h
  split at h
  next hmark _ =>
    obtain ⟨size, hsize, rfl⟩ := List.mem_map.mp h
    exact ⟨mem_sizes hsize, fun _ => rfl⟩
  next hmark _ =>
    refine ⟨?_, absurd hmark⟩
    rcases List.mem_append.mp h with hsigned | hlast
    · obtain ⟨size, hsize, rfl⟩ := List.mem_map.mp hsigned
      exact mem_sizes hsize
    · obtain rfl := List.mem_singleton.mp hlast
      exact Or.inr rfl
  next hmark _ =>
    refine ⟨?_, absurd hmark⟩
    obtain ⟨size, hsize, htype⟩ := List.mem_flatMap.mp h
    have heq : type.size = size := by
      rcases List.mem_cons.mp htype with rfl | hlast
      · rfl
      · rw [List.mem_singleton.mp hlast]
    exact heq ▸ mem_sizes hsize

/-- The value of a constant lies between the least and the largest of 64 bits. -/
theorem value?_bounds {wideLong : Bool} {value : Int} (h : x.value? wideLong = some value) :
    Text.minInt64 ≤ value ∧ value ≤ Text.maxUInt64 ∧
      (x.negative = false ∨ x.suffix.unsignedMark ≠ [] → 0 ≤ value) := by
  obtain ⟨type, hfind, rfl⟩ := Option.map_eq_some_iff.mp h
  obtain ⟨hsize, hunsigned⟩ := mem_types (List.mem_of_find?_eq_some hfind)
  have hholds : type.holds x.magnitude = true :=
    List.find?_some (p := fun type : IntegerType => type.holds x.magnitude) hfind
  obtain ⟨hleast, hmost, hnonneg⟩ := IntegerType.value_bounds hsize hholds x.negative
  exact ⟨hleast, hmost, fun hcase => hnonneg (hcase.imp_right hunsigned)⟩

/-- A number that a signed type in front of the unsigned ones holds has a signed type. -/
theorem exists_signed_type (hunsigned : x.suffix.unsignedMark = [])
    (hlong : x.suffix.longMark = [])
    (h : 2 * x.magnitude < word32 ∨ x.base = .decimal ∧ 2 * x.magnitude < word64)
    (wideLong : Bool) :
    ∃ type : IntegerType, type.signed = true ∧
      (x.types wideLong).find? (fun type => type.holds x.magnitude) = some type := by
  unfold types
  rw [hunsigned, hlong]
  cases hbase : x.base with
  | decimal =>
    have hsmall : 2 * x.magnitude < word64 := by
      unfold word32 word64 at h
      unfold word64
      omega
    have hwide : word64 ∈ sizes wideLong := by simp [sizes]
    have hmem : (⟨word64, true⟩ : IntegerType) ∈ (sizes wideLong).map fun size => ⟨size, true⟩ :=
      List.mem_map_of_mem hwide
    have hsome := List.find?_isSome (p := fun type : IntegerType => type.holds x.magnitude) |>.mpr
      ⟨_, hmem, decide_eq_true hsmall⟩
    obtain ⟨type, hfind⟩ := Option.isSome_iff_exists.mp hsome
    obtain ⟨size, -, rfl⟩ := List.mem_map.mp (List.mem_of_find?_eq_some hfind)
    refine ⟨⟨size, true⟩, rfl, ?_⟩
    change (((sizes wideLong).map fun size => (⟨size, true⟩ : IntegerType)) ++ _).find? _ = _
    rw [List.find?_append, hfind, Option.some_or]
  | octal | hexadecimal =>
    have hsmall : 2 * x.magnitude < word32 := h.resolve_right fun hdecimal => by
      simp [hbase] at hdecimal
    exact ⟨⟨word32, true⟩, rfl, List.find?_cons_of_pos (decide_eq_true hsmall)⟩

theorem value?_of_small (hunsigned : x.suffix.unsignedMark = []) (hlong : x.suffix.longMark = [])
    (h : 2 * x.magnitude < word32 ∨ x.base = .decimal ∧ 2 * x.magnitude < word64)
    (wideLong : Bool) :
    x.value? wideLong = some (if x.negative then -(x.magnitude : Int) else x.magnitude) := by
  obtain ⟨type, hsigned, hfind⟩ := exists_signed_type hunsigned hlong h wideLong
  rw [value?, hfind, Option.map_some, IntegerType.value, if_pos hsigned]
  cases x.negative <;> rfl

/-- The type of a suffix is told from its marks, and so is whether the value is one of the type. -/
theorem holds_iff_fits_of_suffix {kind : Kind} (hkind : x.suffix.kind? = some kind)
    {wideLong : Bool} {value : Int} (hvalue : x.value? wideLong = some value) :
    kind.holds value ↔ x.Fits value := by
  obtain ⟨hleast, hmost, hnonneg⟩ := value?_bounds hvalue
  rw [Suffix.kind?] at hkind
  rw [Fits]
  cases hunsigned : x.suffix.unsignedMark with
  | nil =>
    cases hlong : x.suffix.longMark with
    | nil => simp [hunsigned, hlong, suffixKind?] at hkind
    | cons l rest =>
      obtain rfl : Kind.long = kind := by simpa [hunsigned, hlong, suffixKind?] using hkind
      exact and_iff_right hleast
  | cons u others =>
    have hzero : 0 ≤ value := hnonneg (Or.inr (by simp [hunsigned]))
    cases hlong : x.suffix.longMark with
    | nil =>
      obtain rfl : Kind.uint = kind := by simpa [hunsigned, hlong, suffixKind?] using hkind
      exact and_iff_right hzero
    | cons l rest =>
      obtain rfl : Kind.ulong = kind := by simpa [hunsigned, hlong, suffixKind?] using hkind
      exact iff_true_intro ⟨hzero, hmost⟩

/-- How a number relates to the decimal that its digits spell. -/
theorem magnitude_of_decimal (h : x.base.isHexadecimal = false) :
    x.base = .decimal ∧ x.magnitude = Text.digitsValue x.digits ∨
      x.magnitude < 8 ∧ x.magnitude = Text.digitsValue x.digits ∨
      x.magnitude < Text.digitsValue x.digits := by
  have hreads := x.reads
  cases hbase : x.base with
  | decimal =>
    rw [hbase] at hreads
    exact Or.inl ⟨rfl, (Text.digitsValue_of_inBase?_ten hreads).symm⟩
  | octal =>
    rw [hbase] at hreads
    exact Or.inr ((Text.digitsValue_of_inBase?_eight hreads).imp And.symm And.right)
  | hexadecimal capital =>
    rw [hbase] at h
    cases h

theorem value_of_nonnegative (h : x.negative = false) {wideLong : Bool} {value : Int}
    (hvalue : x.value? wideLong = some value) : value = x.magnitude := by
  obtain ⟨type, -, rfl⟩ := Option.map_eq_some_iff.mp hvalue
  rw [h]
  rfl

/-- Decimal digits without a suffix have a type as long as they spell a number of 32 bits, and it
holds the value also where the digits are octal. -/
theorem exists_decimalKind?_holds_iff (hdecimal : x.base.isHexadecimal = false)
    (hunsigned : x.suffix.unsignedMark = []) (hlong : x.suffix.longMark = [])
    {wideLong : Bool} {value : Int} (hvalue : x.value? wideLong = some value) :
    (∃ kind, decimalKind? x.negative (Text.digitsValue x.digits) = some kind ∧ kind.holds value) ↔
      Text.digitsValue x.digits ≤ if x.negative then 0x80000000 else Text.maxUInt32 := by
  have hmagnitude := magnitude_of_decimal hdecimal
  cases hnegative : x.negative with
  | false =>
    have hmost : x.magnitude ≤ Text.digitsValue x.digits := by omega
    have heq := value_of_nonnegative hnegative hvalue
    simp only [decimalKind?, Bool.false_eq_true, if_false]
    by_cases hfits : Text.digitsValue x.digits ≤ Text.maxUInt32
    · have hholds : Kind.uint.holds value := ⟨by omega, by omega⟩
      simp [hfits, hholds]
    · simp [hfits]
  | true =>
    simp only [decimalKind?, if_true]
    by_cases hfits : Text.digitsValue x.digits ≤ 0x80000000
    · have hsmall : 2 * x.magnitude < word32 ∨ x.base = .decimal ∧ 2 * x.magnitude < word64 := by
        unfold word32 word64
        rcases hmagnitude with ⟨hbase, heq⟩ | hoctal
        · exact Or.inr ⟨hbase, by omega⟩
        · exact Or.inl (by omega)
      have heq := value?_of_small hunsigned hlong hsmall wideLong
      rw [hnegative, if_pos rfl, hvalue, Option.some.injEq] at heq
      have hholds : Kind.int.holds value := by
        change Text.minInt32 ≤ value ∧ value ≤ Text.maxInt32
        unfold Text.minInt32 Text.maxInt32
        omega
      simp [hfits, hholds]
    · simp [hfits]

/-- The type read off the spelling holds the value if it is wide enough, and only then. -/
theorem exists_holds_iff_fits (h : x.isHidden = false) {wideLong : Bool} {value : Int}
    (hvalue : x.value? wideLong = some value) :
    (∃ kind, x.kind? = some kind ∧ kind.holds value) ↔ x.Fits value := by
  cases hkind : x.suffix.kind? with
  | some kind =>
    have hsome : x.kind? = some kind := by rw [kind?, hkind]
    simp [hsome, holds_iff_fits_of_suffix hkind hvalue]
  | none =>
    have hletters := x.suffix.kind?_eq_none_iff.mp hkind
    obtain ⟨hunsigned, hlong⟩ := Suffix.marks_eq_nil hletters
    rw [kind?, hkind, Fits, hunsigned, hlong]
    cases hhex : x.base.isHexadecimal with
    | false =>
      exact exists_decimalKind?_holds_iff hhex hunsigned hlong hvalue
    | true =>
      have hpositive : x.negative = false := by simpa [isHidden, hhex, hletters] using h
      have hzero : 0 ≤ value := (value?_bounds hvalue).2.2 (Or.inl hpositive)
      simp [Kind.holds, hzero]

/-- Neither a suffix nor digits have a type of fractions. -/
theorem mem_of_kind?_eq_some {kind : Kind} (h : x.kind? = some kind) :
    kind ∈ [Kind.int, .uint, .long, .ulong] := by
  rw [kind?] at h
  split at h
  next found hkind =>
    obtain rfl := Option.some.inj h
    unfold Suffix.kind? suffixKind? at hkind
    split at hkind <;> cases hkind <;> simp
  next =>
    split at h
    next => cases h; simp
    next =>
      unfold decimalKind? at h
      split at h <;> split at h <;> cases h <;> simp

/-- The type of an integer constant is that of its suffix, or of 32 bits where there is none, and it
holds the value of the constant exactly if it is wide enough. A hexadecimal number without a suffix
behind a minus sign is left out. -/
theorem kind?_holds_iff_fits (x : IntegerConstant) (h : x.isHidden = false) (pairs : Nat) :
    let inferred := Literal.kind? (normalize (Macro.tokenize (x.text pairs)))
    inferred = x.kind? ∧ (∀ kind ∈ inferred, kind ∈ [Kind.int, .uint, .long, .ulong]) ∧
      ∀ wideLong value, x.value? wideLong = some value →
        ((∃ kind, inferred = some kind ∧ kind.holds value) ↔ x.Fits value) := by
  intro inferred
  have hinferred : inferred = x.kind? := kind?_normalize_eq h pairs
  rw [hinferred]
  exact ⟨rfl, fun kind hkind => mem_of_kind?_eq_some hkind,
    fun wideLong value hvalue => exists_holds_iff_fits h hvalue⟩

def leastInt : IntegerConstant where
  negative := true
  base := .decimal
  digits := "2147483648".toList
  suffix := .plain
  magnitude := 0x80000000
  reads := by decide
  starts := by decide

/-- In C the digits alone do not fit in 32 bits, but the type of the number with its sign does. -/
theorem kind?_holds_iff_fits_leastInt :
    leastInt.text 2 = "((-2147483648))" ∧ leastInt.isHidden = false ∧
      (∀ wideLong, leastInt.value? wideLong = some (-2147483648)) ∧
      Literal.kind? (normalize (Macro.tokenize "((-2147483648))")) = some .int ∧
      ∃ kind, Literal.kind? (normalize (Macro.tokenize "((-2147483648))")) = some kind ∧
        kind.holds (-2147483648) := by
  have htext : leastInt.text 2 = "((-2147483648))" := by decide
  have hvalue : ∀ wideLong, leastInt.value? wideLong = some (-2147483648) := by decide
  obtain ⟨hkind, -, hholds⟩ := kind?_holds_iff_fits leastInt (by decide) 2
  rw [htext] at hkind hholds
  refine ⟨htext, by decide, hvalue, hkind, (hholds true _ (hvalue true)).mpr ?_⟩
  change Text.digitsValue leastInt.digits ≤ 0x80000000
  decide

def allOnes : IntegerConstant where
  negative := false
  base := .hexadecimal false
  digits := "FFFFFFFFFFFFFFFF".toList
  suffix := .plain
  magnitude := 0xFFFFFFFFFFFFFFFF
  reads := by decide
  starts := by decide

/-- A hexadecimal number without a suffix has an unsigned type of 32 bits, also if its value does not
fit. -/
theorem not_holds_allOnes :
    allOnes.text 0 = "0xFFFFFFFFFFFFFFFF" ∧
      (∀ wideLong, allOnes.value? wideLong = some 0xFFFFFFFFFFFFFFFF) ∧
      Literal.kind? (normalize (Macro.tokenize "0xFFFFFFFFFFFFFFFF")) = some .uint ∧
      ¬ ∃ kind, Literal.kind? (normalize (Macro.tokenize "0xFFFFFFFFFFFFFFFF")) = some kind ∧
        kind.holds 0xFFFFFFFFFFFFFFFF := by
  have htext : allOnes.text 0 = "0xFFFFFFFFFFFFFFFF" := by decide
  have hkind : Literal.kind? (normalize (Macro.tokenize "0xFFFFFFFFFFFFFFFF")) = some .uint := by
    rw [← htext]
    exact kind?_normalize_eq (by decide) 0
  refine ⟨htext, by decide, hkind, ?_⟩
  rw [hkind]
  rintro ⟨kind, hsome, hholds⟩
  obtain rfl := Option.some.inj hsome
  exact absurd hholds.2 (by decide)

end IntegerConstant

end HeaderInterop.Literal
