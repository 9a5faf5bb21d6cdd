import HeaderInterop.Decimal.Binary64
import HeaderInterop.Json.Basic
import HeaderInterop.Text.Numeral

/-!
The normal spelling of JSON numbers. An integer of 64 bits keeps its spelling. Any other number is
read as a binary one and spelled by the shortest decimal that reads back: with a point from `1e-5`
up to below `1e16`, with an exponent elsewhere.
-/

namespace HeaderInterop.Json

/-- The exponent behind its mark, zero if there is none. -/
def exponentPart (cs : List Char) : Int :=
  match cs with
  | _ :: sign :: digits =>
    let value := Text.digitsValue (Text.dropSign (sign :: digits))
    if sign = '-' then -Int.ofNat value else Int.ofNat value
  | _ => 0

/-- As many of the digits, put behind those of `n`, as fit into a word of 64 bits, and the digits
left over. -/
def fillWord (n : Nat) : List Char → Nat × List Char
  | [] => (n, [])
  | c :: cs =>
    let next := 10 * n + Text.digitValue c
    if next ≤ Text.maxUInt64 then fillWord next cs else (n, c :: cs)

/-- A number times a power of ten. No power beyond `10 ^ 308` is finite: with more places any number
but zero is too large, and with fewer it is scaled twice, which leaves nothing of a word below
`10 ^ -616`. -/
def scaled (places : Int) (x : Binary64) : Binary64 :=
  if places < -308 then (x.shiftPoint (-308)).shiftPoint (max (places + 308) (-308))
  else if places ≤ 308 then x.shiftPoint places
  else
    match x with
    | .finite negative (_ + 1) _ => .infinite negative
    | x => x

/-- The binary number that a spelling is read as: a word of leading digits, rounded, and then
scaled. It lies close to the spelling, but need not be the nearest number. Digits of the whole part
that do not fit into the word count as zeros, and so do those of the fraction from the first on that
does not fit. -/
def binary64 (spelling : List Char) : Binary64 :=
  let unsigned := Text.dropSign spelling
  let whole := unsigned.takeWhile Char.isDigit
  let (part, rest) := match unsigned.dropWhile Char.isDigit with
    | '.' :: rest => (rest.takeWhile Char.isDigit, rest.dropWhile Char.isDigit)
    | rest => ([], rest)
  let (leading, zeros) := fillWord 0 whole
  let (word, dropped) := fillWord leading part
  let places := exponentPart rest + Int.ofNat zeros.length -
    Int.ofNat (part.length - dropped.length)
  scaled places (Binary64.ofScaled (spelling.head? = some '-') word 1 0)

/-- Digits with a point or an exponent: positional from `1e-5` up to below `1e16`. The sign of an
exponent is always written. -/
def pointed (digits : Nat) (power : Int) : List Char :=
  let ds := Nat.toDigits 10 digits
  let place := Int.ofNat ds.length + power
  if 0 ≤ power && place ≤ 16 then Binary64.positional digits power ++ ['.', '0']
  else if -5 < place && place ≤ 16 then Binary64.positional digits power
  else
    let part := if ds.length = 1 then [] else '.' :: ds.drop 1
    let sign := if place < 1 then '-' else '+'
    ds.take 1 ++ part ++ 'e' :: sign :: Nat.toDigits 10 (place - 1).natAbs

/-- An integer of 64 bits stays as it is spelled. Any other number becomes the shortest decimal that
reads back as the same binary number, and `null` if it is too large for one. -/
def normalNumber (spelling : String) : String :=
  let cs := spelling.toList
  let isInteger := cs ≠ ['-', '0'] &&
    (Text.signed? Text.minInt64 (Int.ofNat Text.maxUInt64) cs).isSome
  if isInteger then spelling
  else
    match binary64 cs with
    | .finite negative mantissa exponent =>
      let body :=
        if mantissa = 0 then ['0', '.', '0']
        else
          let (digits, power) := Binary64.shortest mantissa exponent
          pointed digits power
      String.ofList (if negative then '-' :: body else body)
    | .infinite _ | .notANumber => "null"

end HeaderInterop.Json
