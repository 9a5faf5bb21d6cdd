import HeaderInterop.Config.Value
import HeaderInterop.Text.Lines
import HeaderInterop.Text.Numeral

/-!
Unquoted values of TOML: truth values, integers of 64 bits, binary floating-point numbers, and dates
and times, which are kept as text in their usual form.
-/

namespace HeaderInterop.Toml

/-- The digits without the underscores between two of them. -/
def grouped? (isDigit : Char → Bool) : List Char → Option (List Char)
  | [] => none
  | [c] => if isDigit c then some [c] else none
  | c :: '_' :: rest => if isDigit c then (grouped? isDigit rest).map (c :: ·) else none
  | c :: rest => if isDigit c then (grouped? isDigit rest).map (c :: ·) else none

def inBase? (base : Nat) (cs : List Char) : Option Nat :=
  (grouped? (fun c => (Text.digitInBase? base c).isSome) cs).bind (Text.inBase? base)

/-- Decimal digits without a leading zero. -/
def whole? (cs : List Char) : Option (List Char) :=
  (grouped? Char.isDigit cs).filter fun digits => digits.length = 1 || digits.head? ≠ some '0'

/-- Whether a minus sign is in front. -/
def isNegative (cs : List Char) : Bool :=
  cs.head? = some '-'

/-- An integer before its range is checked; only decimal ones have a sign. -/
def unboundedInteger? : List Char → Option Int
  | '0' :: 'x' :: rest => (inBase? 16 rest).map Int.ofNat
  | '0' :: 'o' :: rest => (inBase? 8 rest).map Int.ofNat
  | '0' :: 'b' :: rest => (inBase? 2 rest).map Int.ofNat
  | cs => (whole? (Text.dropSign cs)).map fun digits =>
    let value := Int.ofNat (Text.digitsValue digits)
    if isNegative cs then -value else value

def integer? (cs : List Char) : Option Int :=
  (unboundedInteger? cs).filter fun n => Text.minInt64 ≤ n && n ≤ Text.maxInt64

/-- The exponent after its mark. -/
def exponent? (cs : List Char) : Option Int :=
  (grouped? Char.isDigit (Text.dropSign cs)).map fun digits =>
    let value := Int.ofNat (Text.digitsValue digits)
    if isNegative cs then -value else value

def isDigitOrGroup (c : Char) : Bool :=
  c.isDigit || c == '_'

/-- What follows the whole part: the digits behind the point, and the exponent. One of them is
there. -/
def fraction? (cs : List Char) : Option (List Char × Int) :=
  match cs with
  | '.' :: rest => do
    let digits ← grouped? Char.isDigit (rest.takeWhile isDigitOrGroup)
    match rest.dropWhile isDigitOrGroup with
    | [] => return (digits, 0)
    | mark :: rest =>
      guard (mark == 'e' || mark == 'E')
      return (digits, ← exponent? rest)
  | mark :: rest => do
    guard (mark == 'e' || mark == 'E')
    return ([], ← exponent? rest)
  | [] => none

/-- A finite number; one that is too large is none. -/
def finite? (cs : List Char) : Option Binary64 := do
  let unsigned := Text.dropSign cs
  let whole ← whole? (unsigned.takeWhile isDigitOrGroup)
  let (part, exponent) ← fraction? (unsigned.dropWhile isDigitOrGroup)
  match Binary64.ofDecimal (isNegative cs) (Text.digitsValue (whole ++ part))
      (exponent - Int.ofNat part.length) with
  | .infinite _ => none
  | number => some number

def float? (cs : List Char) : Option Binary64 :=
  if Text.dropSign cs = "inf".toList then some (.infinite (isNegative cs))
  else if Text.dropSign cs = "nan".toList then some .notANumber
  else finite? cs

/-- As many digits, the number they spell, and what follows. -/
def fixed? (count : Nat) (cs : List Char) : Option (Nat × List Char) :=
  let digits := cs.take count
  if digits.length = count && digits.all Char.isDigit then
    some (Text.digitsValue digits, cs.drop count)
  else none

def isLeapYear (year : Nat) : Bool :=
  year % 4 == 0 && (year % 100 != 0 || year % 400 == 0)

def daysIn (year month : Nat) : Nat :=
  if month = 2 then if isLeapYear year then 29 else 28
  else if month = 4 || month = 6 || month = 9 || month = 11 then 30
  else 31

/-- A number in two digits. -/
def twoDigits (n : Nat) : String :=
  if n < 10 then "0" ++ toString n else toString n

/-- A date in its usual form, and what follows it. -/
def date? (cs : List Char) : Option (String × List Char) := do
  let (year, rest) ← fixed? 4 cs
  let (month, rest) ← fixed? 2 (← Text.after? ['-'] rest)
  let (day, rest) ← fixed? 2 (← Text.after? ['-'] rest)
  guard (1 ≤ month && month ≤ 12 && 1 ≤ day && day ≤ daysIn year month)
  return (String.ofList (cs.take 10), rest)

/-- The part of a second behind the point, cut after nine digits. Zeros at its end are left out, but
one digit stays. -/
def secondPart? (cs : List Char) : Option (String × List Char) :=
  match cs with
  | '.' :: rest =>
    let digits := ((rest.takeWhile Char.isDigit).take 9).reverse.dropWhile (· = '0')
    if (rest.takeWhile Char.isDigit).isEmpty then none
    else
      let digits := if digits.isEmpty then ['0'] else digits.reverse
      some ("." ++ String.ofList digits, rest.dropWhile Char.isDigit)
  | _ => some ("", cs)

/-- A time of day in its usual form, and what follows it. Seconds that are missing stay missing. -/
def time? (cs : List Char) : Option (String × List Char) := do
  let (hour, rest) ← fixed? 2 cs
  let (minute, rest) ← fixed? 2 (← Text.after? [':'] rest)
  guard (hour ≤ 23 && minute ≤ 59)
  let start := twoDigits hour ++ ":" ++ twoDigits minute
  match rest with
  | ':' :: rest =>
    let (second, rest) ← fixed? 2 rest
    guard (second ≤ 60)
    let (part, rest) ← secondPart? rest
    return (start ++ ":" ++ twoDigits second ++ part, rest)
  | _ => return (start, rest)

/-- The distance from the time of the zero meridian: none, `Z`, or signed hours and minutes. -/
def zone? (cs : List Char) : Option String :=
  match cs with
  | [] => some ""
  | ['Z'] | ['z'] => some "Z"
  | sign :: rest => do
    guard (sign == '+' || sign == '-')
    let (hour, rest) ← fixed? 2 rest
    let (minute, rest) ← fixed? 2 (← Text.after? [':'] rest)
    guard (hour ≤ 23 && minute ≤ 59 && rest.isEmpty)
    let sign := if hour = 0 && minute = 0 then "+" else String.singleton sign
    return sign ++ twoDigits hour ++ ":" ++ twoDigits minute

/-- A date, a time, or a date and a time with its zone. -/
def moment? (cs : List Char) : Option String :=
  match date? cs with
  | some (date, []) => some date
  | some (date, mark :: rest) => do
    guard (mark == 'T' || mark == 't' || mark == ' ')
    let (time, rest) ← time? rest
    return date ++ "T" ++ time ++ (← zone? rest)
  | none =>
    match time? cs with
    | some (time, []) => some time
    | _ => none

/-- The value that an unquoted text spells. -/
def scalar? (cs : List Char) : Option Config.Value :=
  if cs = "true".toList then some (.bool true)
  else if cs = "false".toList then some (.bool false)
  else
    ((integer? cs).map .integer).or (((float? cs).map .float).or ((moment? cs).map .text))

end HeaderInterop.Toml
