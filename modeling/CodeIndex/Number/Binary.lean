/-!
# Binary floating point numbers as integers

A finite binary floating point number is an integer times a power of two.  This module takes
numbers of two formats apart and rounds from the wider one to the narrower one by integer
arithmetic alone.

## Main definitions

* `Format` describes a format, and `Format.parts?` takes the bits of a finite number apart.
* `narrow` rounds a 64-bit number to the nearest 32-bit number, ties to the even one.
-/

namespace CodeIndex.Number

/-- A binary interchange format: bits of the stored significand and of the exponent. -/
structure Format where
  significandBits : Nat
  exponentBits : Nat

namespace Format

/-- The 64-bit format. -/
def binary64 : Format := ⟨52, 11⟩

/-- The 32-bit format. -/
def binary32 : Format := ⟨23, 8⟩

/-- The exponent of the least significant bit of the smallest numbers. -/
def minExponent (format : Format) : Int :=
  2 - (Nat.pow 2 (format.exponentBits - 1) : Int) - (format.significandBits : Int)

/-- The exponent field of the infinities. -/
def infinityField (format : Format) : Nat := Nat.pow 2 format.exponentBits - 1

end Format

/-- A finite number: sign, integer significand, and the power of two that it is multiplied by. -/
structure Parts where
  negative : Bool
  significand : Nat
  exponent : Int
deriving DecidableEq, Repr

/-- Take the bits of a finite number apart; the infinities and NaN have no parts. -/
def Format.parts? (format : Format) (bits : Nat) : Option Parts :=
  let fraction := bits % Nat.pow 2 format.significandBits
  let field := bits / Nat.pow 2 format.significandBits % Nat.pow 2 format.exponentBits
  let negative := bits / Nat.pow 2 (format.significandBits + format.exponentBits) % 2 == 1
  if field = format.infinityField then none
  else if field = 0 then some ⟨negative, fraction, format.minExponent⟩
  else
    some ⟨negative, Nat.pow 2 format.significandBits + fraction,
      format.minExponent + (field - 1 : Nat)⟩

/-- `n / 2 ^ shift` rounded to the nearest integer, ties to the even one. -/
def roundShift (n shift : Nat) : Nat :=
  let unit := Nat.pow 2 shift
  let quotient := n / unit
  let twice := 2 * (n % unit)
  if unit < twice ∨ (twice = unit ∧ quotient % 2 = 1) then quotient + 1 else quotient

/-- The magnitude bits of the number of a format that is nearest to `significand * 2 ^ exponent`. -/
def Format.roundBits (format : Format) (significand : Nat) (exponent : Int) : Nat :=
  if significand = 0 then 0
  else
    let precise := exponent + (significand.log2 : Int) - (format.significandBits : Int)
    let target := max precise format.minExponent
    let rounded :=
      if target ≤ exponent then significand * Nat.pow 2 (exponent - target).toNat
      else roundShift significand (target - exponent).toNat
    let bits := (target - format.minExponent).toNat * Nat.pow 2 format.significandBits + rounded
    min bits (format.infinityField * Nat.pow 2 format.significandBits)

/-- The 32-bit number nearest to a 64-bit number. -/
def narrow (x : Float) : Float32 :=
  match Format.binary64.parts? x.toBits.toNat with
  | some parts =>
    let sign := if parts.negative then 0x80000000 else 0
    Float32.ofBits (sign + Format.binary32.roundBits parts.significand parts.exponent).toUInt32
  | none =>
    if x.isNaN then Float32.ofBits 0x7FC00000
    else if x < 0.0 then Float32.ofBits 0xFF800000
    else Float32.ofBits 0x7F800000

end CodeIndex.Number
