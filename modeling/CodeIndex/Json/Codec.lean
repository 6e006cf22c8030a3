import CodeIndex.Json.Parser
import CodeIndex.Number.Decimal

/-!
# Reading and writing records as JSON

A record is written as an object with its fields in a fixed order.  It is read from an object with
the fields in any order, unknown members being passed over and repeated fields being refused, or
from an array with the fields in their fixed order, where only fields with a default may be missing
at the end.

## Main definitions

* `Value.string?`, `Value.natural?`, `Value.integer?`, `Value.float?`, `Value.float32?`,
  `Value.list?` and `Value.optional?` read the values of fields.
* `Fields` are the values found for the fields of a record; `Fields.required`, `Fields.optional` and
  `Fields.withDefault` take them out.
-/

namespace CodeIndex.Json

/-- The values of integers of 64 bits without sign. -/
def maxUnsigned : Nat := 0xFFFFFFFFFFFFFFFF

/-- Read decimal digits. -/
def ofDigits (digits : List Char) : Nat :=
  digits.foldl (fun n c => n * 10 + (c.toNat - 48)) 0

/-- Split a number into its sign, the digits before and behind the point, and the exponent. -/
def decimalOf (text : List Char) : Number.Decimal :=
  let negative := text.head? == some '-'
  let text := if negative then text.drop 1 else text
  let whole := text.takeWhile Char.isDigit
  let text := text.drop whole.length
  let fraction := if text.head? == some '.' then (text.drop 1).takeWhile Char.isDigit else []
  let text := if text.head? == some '.' then text.drop (fraction.length + 1) else text
  let exponent : Int :=
    match text with
    | _ :: '-' :: digits => -(ofDigits digits : Int)
    | _ :: '+' :: digits => ofDigits digits
    | _ :: digits => ofDigits digits
    | [] => 0
  ⟨negative, ofDigits (whole ++ fraction), exponent - fraction.length⟩

namespace Value

/-- The text of a string. -/
def string? : Value → Option String
  | .string body => (unescape? body).map String.ofList
  | _ => none

/-- The value of a number that is written as digits only and fits 64 bits. -/
def natural? : Value → Option Nat
  | .number text =>
    if text.all Char.isDigit && ofDigits text ≤ maxUnsigned then some (ofDigits text) else none
  | _ => none

/-- The value of a number that is written as an integer and fits 64 bits with sign; a zero with a
minus sign is no integer. -/
def integer? : Value → Option Int
  | .number ('-' :: digits) =>
    let n := ofDigits digits
    if digits.all Char.isDigit && 0 < n && n ≤ 0x8000000000000000 then some (-(n : Int)) else none
  | value =>
    match value.natural? with
    | some n => if n < 0x8000000000000000 then some n else none
    | none => none

/-- The 64-bit floating point number nearest to a number, unless that is an infinity. -/
def float? : Value → Option Float
  | .number text =>
    let x := (decimalOf text).toFloat
    if x.isFinite then some x else none
  | _ => none

/-- The 32-bit floating point number nearest to a natural number. -/
def float32OfNat (n : Nat) : Float32 :=
  Float32.ofBits (Number.Format.binary32.roundBits n 0).toUInt32

/-- A number as a 32-bit floating point number: an integer is rounded once, any other number by way
of the wider format. -/
def float32? (value : Value) : Option Float32 :=
  match value.integer? with
  | some i => some (if i < 0 then -float32OfNat i.natAbs else float32OfNat i.natAbs)
  | none => value.float?.map Number.narrow

/-- The items of an array, each read by `item`. -/
def list? {α : Type} (item : Value → Option α) : Value → Option (List α)
  | .array items => items.mapM item
  | _ => none

/-- A list of strings. -/
def strings? : Value → Option (List String) := list? string?

/-- Nothing for null, and what `item` reads for any other value. -/
def optional? {α : Type} (item : Value → Option α) : Value → Option (Option α)
  | .null => some none
  | value => (item value).map some

/-- The name of one of several alternatives without content: a string, or an object whose only
member has the name and is null. -/
def variant? : Value → Option String
  | .string body => (unescape? body).map String.ofList
  | .object [(key, .null)] => (unescape? key).map String.ofList
  | _ => none

/-- A floating point number. -/
def ofFloat (x : Float) : Value :=
  .number (Number.Layout.json.text .binary64 x.toBits.toNat).toList

/-- A 32-bit floating point number. -/
def ofFloat32 (x : Float32) : Value :=
  .number (Number.Layout.jsonNarrow.text .binary32 x.toBits.toNat).toList

end Value

/-- What was found for the fields of a record: in an object any field may be missing, in an array
the ones at the end. -/
structure Fields where
  found : List (String × Value)
  positional : Bool

namespace Fields

/-- Take the members with one of the given names, refusing a repeated one and a name that denotes
no text. -/
def ofMembers (names : List String) (found : List (String × Value)) :
    List (List Char × Value) → Option (List (String × Value))
  | [] => some found.reverse
  | (key, value) :: rest =>
    match unescape? key with
    | none => none
    | some name =>
      let name := String.ofList name
      if !names.contains name then ofMembers names found rest
      else if found.any (·.1 == name) then none
      else ofMembers names ((name, value) :: found) rest

/-- The fields of a record with the given field names. -/
def ofValue? (names : List String) : Value → Option Fields
  | .object members => (ofMembers names [] members).map fun found => ⟨found, false⟩
  | .array items =>
    if items.length ≤ names.length then some ⟨names.zip items, true⟩ else none
  | _ => none

/-- The value of a field. -/
def get? (fields : Fields) (name : String) : Option Value :=
  (fields.found.find? (·.1 == name)).map (·.2)

/-- A field that has to be there. -/
def required {α : Type} (fields : Fields) (name : String) (read : Value → Option α) : Option α :=
  (fields.get? name).bind read

/-- A field that has a default. -/
def withDefault {α : Type} (fields : Fields) (name : String) (fallback : α)
    (read : Value → Option α) : Option α :=
  match fields.get? name with
  | some value => read value
  | none => some fallback

/-- A field that an object may lack and an array may not. -/
def optional {α : Type} (fields : Fields) (name : String) (read : Value → Option α) :
    Option (Option α) :=
  match fields.get? name with
  | some value => value.optional? read
  | none => if fields.positional then none else some none

end Fields

end CodeIndex.Json
