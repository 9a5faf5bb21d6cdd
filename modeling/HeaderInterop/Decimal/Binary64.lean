/-!
Binary floating-point numbers of 64 bits, read from decimals, scaled by powers of ten, and written
as the shortest decimal that reads back, all in whole numbers. A finite number is a mantissa below
`2 ^ 53` times a power of two whose exponent is at least `-1074`. Reading and scaling go to the
nearest of them, and a tie to the even mantissa; of two shortest decimals equally near, the one
farther from zero is written.
-/

namespace HeaderInterop

inductive Binary64 where
  | finite (negative : Bool) (mantissa : Nat) (exponent : Int)
  | infinite (negative : Bool)
  | notANumber
deriving DecidableEq, Repr

namespace Binary64

def minExponent : Int := -1074

def maxExponent : Int := 971

/-- `2 ^ 52`, the least mantissa whose exponent is above the least one. -/
def leastNormal : Nat := 0x10000000000000

/-- A quotient rounded to the nearest whole number, a tie to the even one. -/
def roundDiv (num den : Nat) : Nat :=
  let whole := num / den
  let rest := 2 * (num % den)
  if rest > den || (rest == den && whole % 2 == 1) then whole + 1 else whole

/-- A power of a base with any exponent, as numerator and denominator. -/
def ratio (base : Nat) (exponent : Int) : Nat × Nat :=
  if 0 ≤ exponent then (base.pow exponent.toNat, 1) else (1, base.pow (-exponent).toNat)

/-- The number nearest to `num / den`, neither of them zero. -/
def ofRatio (negative : Bool) (num den : Nat) : Binary64 :=
  let estimate : Int := max (Int.ofNat num.log2 - Int.ofNat den.log2 - 53) minExponent
  let limit := ratio 2 (estimate + 53)
  let exponent := if num * limit.2 ≥ den * limit.1 then estimate + 1 else estimate
  let scale := ratio 2 exponent
  let mantissa := roundDiv (num * scale.2) (den * scale.1)
  let (mantissa, exponent) :=
    if mantissa = 2 * leastNormal then (leastNormal, exponent + 1) else (mantissa, exponent)
  if exponent > maxExponent then infinite negative else finite negative mantissa exponent

/-- The number nearest to `digits * 10 ^ exponent`. -/
def ofDecimal (negative : Bool) (digits : Nat) (exponent : Int) : Binary64 :=
  let places : Int := Int.ofNat (Nat.toDigits 10 digits).length + exponent
  if digits = 0 || places < -400 then finite negative 0 minExponent
  else if places > 400 then infinite negative
  else
    let power := ratio 10 exponent
    ofRatio negative (digits * power.1) power.2

/-- The number nearest to `num / den * 2 ^ exponent`; `den` is not zero. -/
def ofScaled (negative : Bool) (num den : Nat) (exponent : Int) : Binary64 :=
  if num = 0 then finite negative 0 minExponent
  else
    let scale := ratio 2 exponent
    ofRatio negative (num * scale.1) (den * scale.2)

/-- A number times a power of ten if `places` is positive, and divided by one if it is negative. The
power itself is rounded before and the result after, so that this may miss the number nearest to the
exact product. -/
def shiftPoint (places : Int) (x : Binary64) : Binary64 :=
  match x, ofDecimal false 1 (Int.ofNat places.natAbs) with
  | finite negative mantissa exponent, finite _ power scale =>
    if 0 ≤ places then ofScaled negative (mantissa * power) 1 (exponent + scale)
    else ofScaled negative mantissa power (exponent - scale)
  | x, _ => x

def isZero : Binary64 → Bool
  | finite _ mantissa _ => mantissa == 0
  | infinite _ | notANumber => false

/-- The decimals `digits * 10 ^ exponent` that read back as a given number lie between two bounds,
which are numerators over `den`; they count as inside if the mantissa is even. -/
structure Window where
  low : Nat
  value : Nat
  high : Nat
  den : Nat
  closed : Bool

/-- Bounds half-way to the neighbours; below a power of two the neighbour is half as far. -/
def window (mantissa : Nat) (exponent : Int) : Window :=
  let scale := ratio 2 (exponent - 2)
  let below := if mantissa = leastNormal ∧ exponent > minExponent then 1 else 2
  { low := (4 * mantissa - below) * scale.1
    value := 4 * mantissa * scale.1
    high := (4 * mantissa + 2) * scale.1
    den := scale.2
    closed := mantissa % 2 == 0 }

/-- Whether `digits * 10 ^ exponent` lies in the window. -/
def Window.holds (w : Window) (digits : Nat) (exponent : Int) : Bool :=
  let power := ratio 10 exponent
  let point := digits * power.1 * w.den
  let low := w.low * power.2
  let high := w.high * power.2
  if w.closed then low ≤ point && point ≤ high else low < point && point < high

/-- Of the two neighbours of the value on the grid of `10 ^ exponent`, the nearer one that lies in
the window; of two equally near, the upper one. -/
def Window.onGrid? (w : Window) (exponent : Int) : Option Nat :=
  let power := ratio 10 exponent
  let num := w.value * power.2
  let den := w.den * power.1
  let below := num / den
  let nearest := (2 * num + den) / (2 * den)
  let other := if nearest = below then below + 1 else below
  if w.holds nearest exponent then some nearest
  else if w.holds other exponent then some other
  else none

/-- The decimal exponent of the leading digit. -/
def Window.leading (w : Window) : Int :=
  Int.ofNat (Nat.toDigits 10 (w.value * Nat.pow 10 400 / w.den)).length - 401

/-- The coarsest grid with a point in the window, from `exponent` on. -/
def Window.search (w : Window) (exponent : Int) : Nat → Nat × Int
  | 0 => ((w.onGrid? exponent).getD 0, exponent)
  | fuel + 1 =>
    match w.onGrid? exponent with
    | some digits => (digits, exponent)
    | none => w.search (exponent - 1) fuel

/-- The shortest decimal that reads back as the number; seventeen digits are always enough. The
first grid is one coarser than the leading digit, since the number may lie just below a power of
ten that reads back. -/
def shortest (mantissa : Nat) (exponent : Int) : Nat × Int :=
  let w := window mantissa exponent
  w.search (w.leading + 1) 18

/-- `digits * 10 ^ exponent` without an exponent mark. -/
def positional (digits : Nat) (exponent : Int) : List Char :=
  let ds := Nat.toDigits 10 digits
  if 0 ≤ exponent then ds ++ List.replicate exponent.toNat '0'
  else
    let places := (-exponent).toNat
    if ds.length > places then ds.take (ds.length - places) ++ '.' :: ds.drop (ds.length - places)
    else '0' :: '.' :: List.replicate (places - ds.length) '0' ++ ds

/-- The shortest text that reads back, without an exponent mark. -/
def text : Binary64 → String
  | finite negative mantissa exponent =>
    let body :=
      if mantissa = 0 then ['0']
      else
        let (digits, power) := shortest mantissa exponent
        positional digits power
    String.ofList (if negative then '-' :: body else body)
  | infinite negative => if negative then "-inf" else "inf"
  | notANumber => "NaN"

end Binary64

end HeaderInterop
