import CodeIndex.Number.Binary

/-!
# Decimal texts of numbers

The two directions between decimal texts and binary floating point numbers.  `Decimal.toFloat` is
the number nearest to a decimal.  `shortest` is the decimal of least length that is nearer to the
given number than to any other number of its format, and among those of that length the nearest to
the number itself.

## Main definitions

* `Decimal` is an integer times a power of ten.
* `shortestParts` searches the grids of one digit, two digits, and so on; the search ends with
  seventeen digits at the latest.
* `Layout` says how digits are written; `Layout.json` and `Layout.positional` are the two
  layouts in use.
-/

namespace CodeIndex.Number

/-- The number `digits * 10 ^ exponent`, or its negative. -/
structure Decimal where
  negative : Bool
  digits : Nat
  exponent : Int
deriving DecidableEq, Repr

/-- The decimal digits of a number. -/
def digitsOf (n : Nat) : List Char := Nat.toDigits 10 n

/-- The 64-bit number nearest to a decimal; an infinity if it is too large. -/
def Decimal.toFloat (d : Decimal) : Float :=
  let magnitude := d.exponent + ((digitsOf d.digits).length : Int)
  let value :=
    if d.digits = 0 ∨ magnitude < -400 then 0.0
    else if 400 < magnitude then Float.ofBits 0x7FF0000000000000
    else Float.ofScientific d.digits (d.exponent < 0) d.exponent.natAbs
  if d.negative then -value else value

/-- Drop the zeros at the end of the digits. -/
def Decimal.trimmed : (fuel : Nat) → (digits : Nat) → (exponent : Int) → Nat × Int
  | 0, digits, exponent => (digits, exponent)
  | fuel + 1, digits, exponent =>
    if digits ≠ 0 ∧ digits % 10 = 0 then trimmed fuel (digits / 10) (exponent + 1)
    else (digits, exponent)

/-- The number `n * 10 ^ e` as a fraction. -/
def scaled (n : Nat) (e : Int) : Nat × Nat :=
  if 0 ≤ e then (n * Nat.pow 10 e.toNat, 1) else (n, Nat.pow 10 e.natAbs)

/-- Whether one fraction is less than another. -/
def fractionLt (a b : Nat × Nat) : Bool := a.1 * b.2 < b.1 * a.2

/-- The interval of fractions that round to a number. -/
structure Interval where
  low : Nat × Nat
  high : Nat × Nat
  /-- Whether the ends round to the number as well. -/
  closed : Bool

/-- Whether a fraction lies in an interval. -/
def Interval.contains (interval : Interval) (x : Nat × Nat) : Bool :=
  if interval.closed then !fractionLt x interval.low && !fractionLt interval.high x
  else fractionLt interval.low x && fractionLt x interval.high

/-- A fraction `n * 2 ^ e`. -/
def binaryFraction (n : Nat) (e : Int) : Nat × Nat :=
  if 0 ≤ e then (n * Nat.pow 2 e.toNat, 1) else (n, Nat.pow 2 e.natAbs)

/-- The fractions that round to `significand * 2 ^ exponent`; below a power of two the numbers
stand closer together. -/
def intervalOf (format : Format) (significand : Nat) (exponent : Int) : Interval where
  low :=
    if significand = Nat.pow 2 format.significandBits ∧ exponent ≠ format.minExponent then
      binaryFraction (4 * significand - 1) (exponent - 2)
    else binaryFraction (2 * significand - 1) (exponent - 1)
  high := binaryFraction (2 * significand + 1) (exponent - 1)
  closed := significand % 2 = 0

/-- The power of ten of the first digit of a positive fraction. -/
def leadingPower (x : Nat × Nat) : Int :=
  if x.2 ≤ x.1 then ((digitsOf (x.1 / x.2)).length : Int) - 1
  else
    let power := (digitsOf (x.2 / x.1)).length
    if x.2 ≤ x.1 * Nat.pow 10 (power - 1) then 1 - (power : Int) else -(power : Int)

/-- The decimal of a grid that lies in the interval, the nearer one if there are two. -/
def onGrid? (value : Nat × Nat) (interval : Interval) (grid : Int) : Option Nat :=
  let unit := scaled 1 grid
  let below := value.1 * unit.2 / (value.2 * unit.1)
  let lowHit := 0 < below && interval.contains (scaled below grid)
  let highHit := interval.contains (scaled (below + 1) grid)
  let middle := scaled (10 * below + 5) (grid - 1)
  if lowHit && highHit then
    if fractionLt value middle || (!fractionLt middle value && below % 2 == 0) then some below
    else some (below + 1)
  else if lowHit then some below
  else if highHit then some (below + 1)
  else none

/-- Search the grids from the coarsest on. -/
def searchGrids (value : Nat × Nat) (interval : Interval) : (tries : Nat) → (grid : Int) → Nat × Int
  | 0, grid => (value.1 * (scaled 1 grid).2 / (value.2 * (scaled 1 grid).1), grid)
  | tries + 1, grid =>
    match onGrid? value interval grid with
    | some digits => (digits, grid)
    | none => searchGrids value interval tries (grid - 1)

/-- The shortest decimal that reads back as `significand * 2 ^ exponent`. -/
def shortestParts (format : Format) (significand : Nat) (exponent : Int) : Nat × Int :=
  if significand = 0 then (0, 0)
  else
    let value := binaryFraction significand exponent
    let (digits, power) :=
      searchGrids value (intervalOf format significand exponent) 17 (leadingPower value)
    Decimal.trimmed 400 digits power

/-- How the digits of a number are written. -/
structure Layout where
  /-- The number of places before the point up to which a number is written without exponent. -/
  maxPlaces : Option Nat
  /-- The number of zeros behind the point up to which a number is written without exponent. -/
  maxZeros : Option Nat
  /-- What follows the digits of an integer. -/
  integerEnd : String
  /-- The texts of the numbers that are not finite. -/
  infinity : String
  nan : String

namespace Layout

/-- Numbers in JSON of the wider format. -/
def json : Layout := ⟨some 16, some 4, ".0", "null", "null"⟩

/-- Numbers in JSON of the narrower format. -/
def jsonNarrow : Layout := ⟨some 13, some 5, ".0", "null", "null"⟩

/-- Numbers in messages: never with an exponent. -/
def positional : Layout := ⟨none, none, "", "inf", "NaN"⟩

/-- Whether a count is within a limit. -/
def within (count : Nat) : Option Nat → Bool
  | none => true
  | some limit => count ≤ limit

/-- The text of a positive decimal. -/
def digitsText (layout : Layout) (digits : Nat) (exponent : Int) : String :=
  let ds := digitsOf digits
  let point : Int := ds.length + exponent
  let zeros (n : Nat) := List.replicate n '0'
  if 0 ≤ exponent && within point.toNat layout.maxPlaces then
    String.ofList (ds ++ zeros exponent.toNat) ++ layout.integerEnd
  else if exponent < 0 && 0 < point && within point.toNat layout.maxPlaces then
    String.ofList (ds.take point.toNat ++ '.' :: ds.drop point.toNat)
  else if point ≤ 0 && within point.natAbs layout.maxZeros then
    String.ofList ('0' :: '.' :: zeros point.natAbs ++ ds)
  else
    let power := toString (point - 1)
    match ds with
    | [d] => String.ofList [d] ++ "e" ++ power
    | ds => String.ofList (ds.take 1 ++ '.' :: ds.drop 1) ++ "e" ++ power

/-- The text of the number of a format with the given bits. -/
def text (layout : Layout) (format : Format) (bits : Nat) : String :=
  match format.parts? bits with
  | some parts =>
    let (digits, exponent) := shortestParts format parts.significand parts.exponent
    (if parts.negative then "-" else "") ++ layout.digitsText digits exponent
  | none =>
    let negative := bits / Nat.pow 2 (format.significandBits + format.exponentBits) % 2 == 1
    if bits % Nat.pow 2 format.significandBits ≠ 0 then layout.nan
    else if negative && layout.infinity != "null" then "-" ++ layout.infinity
    else layout.infinity

end Layout

end CodeIndex.Number
