import CodeIndex.Number.Binary

/-!
# The natural logarithm

The logarithm of a 64-bit floating point number, computed with integers that count small units and
rounded once at the end.  The number is scaled to a neighbourhood of one by a power of two, where
the series of the area tangent converges fast.

## Main definitions

* `areaTangent` sums up the series.
* `naturalLog` is the logarithm.
-/

namespace CodeIndex.Number

/-- Number of fractional bits in the computation. -/
def logarithmBits : Nat := 192

/-- Number of terms of the series, each of which adds at least three bits. -/
def logarithmTerms : Nat := 64

/-- Terms of the series of the area tangent: `power` is the next odd power of the argument and
`divisor` its exponent, both with `square` for the next term. -/
def areaTangentFrom (square : Int) : Nat → Int → Int → Int
  | 0, _, _ => 0
  | terms + 1, divisor, power =>
    power / divisor +
      areaTangentFrom square terms (divisor + 2) (power * square / Nat.pow 2 logarithmBits)

/-- The area tangent of a quotient whose square is at most a ninth. -/
def areaTangent (numerator denominator : Int) : Int :=
  let argument := numerator * Nat.pow 2 logarithmBits / denominator
  areaTangentFrom (argument * argument / Nat.pow 2 logarithmBits) logarithmTerms 1 argument

/-- The logarithm of `significand * 2 ^ exponent` in units of the last fractional bit. -/
def logarithmUnits (significand : Nat) (exponent : Int) : Int :=
  let places := significand.log2
  -- Scale to between three quarters and three halves.
  let shift := if 3 * Nat.pow 2 places < 2 * significand then places + 1 else places
  let one : Int := Nat.pow 2 shift
  (exponent + shift) * (2 * areaTangent 1 3) +
    2 * areaTangent (significand - one) (significand + one)

/-- The natural logarithm, rounded to the nearest number: minus infinity for zero, and NaN for
numbers below zero. -/
def naturalLog (x : Float) : Float :=
  match Format.binary64.parts? x.toBits.toNat with
  | some parts =>
    if parts.significand = 0 then Float.ofBits 0xFFF0000000000000
    else if parts.negative then Float.ofBits 0x7FF8000000000000
    else
      let units := logarithmUnits parts.significand parts.exponent
      let sign := if units < 0 then 0x8000000000000000 else 0
      Float.ofBits (sign + Format.binary64.roundBits units.natAbs (-logarithmBits)).toUInt64
  | none => if x < 0.0 then Float.ofBits 0x7FF8000000000000 else x

end CodeIndex.Number
