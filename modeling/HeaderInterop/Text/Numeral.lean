/-!
Numbers in text: decimal integers with an optional sign that lie in a range, and the grammar of
decimal fractions. Neither blanks nor digit separators are accepted.
-/

namespace HeaderInterop.Text

def digitValue (c : Char) : Nat :=
  c.toNat - '0'.toNat

/-- The number that decimal digits spell, the leading digit first. -/
def digitsValue (digits : List Char) : Nat :=
  digits.foldl (fun n c => 10 * n + digitValue c) 0

/-- One or more decimal digits and nothing else. -/
def digits? (cs : List Char) : Option Nat :=
  if !cs.isEmpty && cs.all Char.isDigit then some (digitsValue cs) else none

/-- The value of a digit of the bases up to sixteen. -/
def digitInBase? (base : Nat) (c : Char) : Option Nat :=
  let value? :=
    if c.isDigit then some (digitValue c)
    else if 'a' ≤ c ∧ c ≤ 'f' then some (c.toNat - 'a'.toNat + 10)
    else if 'A' ≤ c ∧ c ≤ 'F' then some (c.toNat - 'A'.toNat + 10)
    else none
  value?.filter (· < base)

/-- The number that one or more digits of a base spell, the leading digit first. -/
def inBase? (base : Nat) (cs : List Char) : Option Nat :=
  if cs.isEmpty then none
  else cs.foldlM (fun n c => (digitInBase? base c).map (base * n + ·)) 0

/-- An optional plus sign and decimal digits, of value at most `limit`. -/
def unsigned? (limit : Nat) (cs : List Char) : Option Nat :=
  let digits := match cs with
    | '+' :: rest => rest
    | _ => cs
  (digits? digits).filter (· ≤ limit)

/-- An optional sign and decimal digits, of value between `low` and `high`. -/
def signed? (low high : Int) (cs : List Char) : Option Int :=
  let value := match cs with
    | '+' :: rest => (digits? rest).map Int.ofNat
    | '-' :: rest => (digits? rest).map fun n => -Int.ofNat n
    | _ => (digits? cs).map Int.ofNat
  value.filter fun n => low ≤ n && n ≤ high

/-! The least and largest values of the words in use. -/

def maxUInt32 : Nat := 0xffffffff

def maxUInt64 : Nat := 0xffffffffffffffff

def minInt32 : Int := -0x80000000

def maxInt32 : Int := 0x7fffffff

def minInt64 : Int := -0x8000000000000000

def maxInt64 : Int := 0x7fffffffffffffff

def minInt128 : Int := -0x80000000000000000000000000000000

def maxInt128 : Int := 0x7fffffffffffffffffffffffffffffff

/-- The text without a sign at its start. -/
def dropSign : List Char → List Char
  | '+' :: rest => rest
  | '-' :: rest => rest
  | cs => cs

/-- A decimal fraction: a sign, digits with a point before, after or among them, an exponent; of
these only one digit must be there. -/
def isFraction (cs : List Char) : Bool :=
  let unsigned := dropSign cs
  let whole := unsigned.takeWhile Char.isDigit
  let afterWhole := unsigned.dropWhile Char.isDigit
  let (part, afterPart) := match afterWhole with
    | '.' :: rest => (rest.takeWhile Char.isDigit, rest.dropWhile Char.isDigit)
    | rest => ([], rest)
  let exponentOk := match afterPart with
    | [] => true
    | e :: rest => (e == 'e' || e == 'E') && (digits? (dropSign rest)).isSome
  (!whole.isEmpty || !part.isEmpty) && exponentOk

theorem unsigned?_le {limit n : Nat} {cs : List Char} (h : unsigned? limit cs = some n) :
    n ≤ limit := by
  simp only [unsigned?, Option.filter_eq_some_iff, decide_eq_true_eq] at h
  exact h.2

theorem signed?_mem {low high n : Int} {cs : List Char} (h : signed? low high cs = some n) :
    low ≤ n ∧ n ≤ high := by
  simp only [signed?, Option.filter_eq_some_iff, Bool.and_eq_true, decide_eq_true_eq] at h
  exact h.2

end HeaderInterop.Text
