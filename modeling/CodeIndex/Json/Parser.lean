import CodeIndex.Json.Value

/-!
# Reading JSON

`parse?` reads a text that holds exactly one JSON value and blanks around it.  The reader follows
the grammar and nothing else: it does not ask what numbers and strings denote.

## Main definitions

* `isNumber` is the grammar of numbers.
* `scanString` cuts the body of a string off a text.
* `parseValue`, `parseItems` and `parseMembers` read values, the items of an array and the members
  of an object; each step takes a character, so twice the length of the text bounds their number.
-/

namespace CodeIndex.Json

/-- The characters that may stand between tokens. -/
def isBlank (c : Char) : Bool := c == ' ' || c == '\n' || c == '\t' || c == '\r'

/-- A text without the blanks at its front. -/
def skipBlank (text : List Char) : List Char := text.dropWhile isBlank

/-- At least one digit, and nothing else up to the given continuation. -/
def digitsThen (next : List Char → Bool) (text : List Char) : Bool :=
  match text with
  | [] => false
  | c :: rest => c.isDigit && next (rest.dropWhile Char.isDigit)

/-- An exponent, or nothing. -/
def isExponent : List Char → Bool
  | [] => true
  | e :: rest =>
    (e == 'e' || e == 'E') &&
      digitsThen (·.isEmpty) (match rest with
        | s :: digits => if s == '+' || s == '-' then digits else rest
        | [] => [])

/-- A fraction and an exponent, each of which may be missing. -/
def isFraction : List Char → Bool
  | '.' :: rest => digitsThen isExponent rest
  | text => isExponent text

/-- A number without sign. -/
def isUnsigned : List Char → Bool
  | '0' :: rest => isFraction rest
  | text => digitsThen isFraction text

/-- The grammar of numbers. -/
def isNumber : List Char → Bool
  | '-' :: rest => isUnsigned rest
  | text => isUnsigned text

/-- The characters that numbers are made of. -/
def isNumberChar (c : Char) : Bool :=
  c.isDigit || c == '-' || c == '+' || c == '.' || c == 'e' || c == 'E'

/-- Cut the body of a string off a text that starts behind the opening quote; `read` holds the
characters before, in reverse. -/
def scanString (read : List Char) : List Char → Option (List Char × List Char)
  | [] => none
  | '"' :: rest => some (read.reverse, rest)
  | '\\' :: 'u' :: a :: b :: c :: d :: rest =>
    if (hexValue4? a b c d).isSome then
      scanString (d :: c :: b :: a :: 'u' :: '\\' :: read) rest
    else none
  | '\\' :: c :: rest =>
    if (simpleEscape? c).isSome then scanString (c :: '\\' :: read) rest else none
  | c :: rest => if c.val < 0x20 || c == '\\' then none else scanString (c :: read) rest

mutual

/-- Read one value from the front of a text. -/
def parseValue : (fuel : Nat) → List Char → Option (Value × List Char)
  | 0, _ => none
  | fuel + 1, text =>
    match skipBlank text with
    | 'n' :: 'u' :: 'l' :: 'l' :: rest => some (.null, rest)
    | 't' :: 'r' :: 'u' :: 'e' :: rest => some (.bool true, rest)
    | 'f' :: 'a' :: 'l' :: 's' :: 'e' :: rest => some (.bool false, rest)
    | '"' :: rest => (scanString [] rest).map fun (body, rest) => (.string body, rest)
    | '[' :: rest =>
      match skipBlank rest with
      | ']' :: rest => some (.array [], rest)
      | rest => (parseItems fuel [] rest).map fun (items, rest) => (.array items, rest)
    | '\x7b' :: rest =>
      match skipBlank rest with
      | '\x7d' :: rest => some (.object [], rest)
      | rest => (parseMembers fuel [] rest).map fun (members, rest) => (.object members, rest)
    | text =>
      let digits := text.takeWhile isNumberChar
      if isNumber digits then some (.number digits, text.drop digits.length) else none

/-- Read the items of an array up to its end; `read` holds the items before, in reverse. -/
def parseItems : (fuel : Nat) → (read : List Value) → List Char → Option (List Value × List Char)
  | 0, _, _ => none
  | fuel + 1, read, text =>
    match parseValue fuel text with
    | none => none
    | some (item, rest) =>
      match skipBlank rest with
      | ',' :: rest => parseItems fuel (item :: read) rest
      | ']' :: rest => some ((item :: read).reverse, rest)
      | _ => none

/-- Read the members of an object up to its end; `read` holds the members before, in reverse. -/
def parseMembers : (fuel : Nat) → (read : List (List Char × Value)) → List Char →
    Option (List (List Char × Value) × List Char)
  | 0, _, _ => none
  | fuel + 1, read, text =>
    match skipBlank text with
    | '"' :: rest =>
      match scanString [] rest with
      | none => none
      | some (key, rest) =>
        match skipBlank rest with
        | ':' :: rest =>
          match parseValue fuel rest with
          | none => none
          | some (value, rest) =>
            match skipBlank rest with
            | ',' :: rest => parseMembers fuel ((key, value) :: read) rest
            | '\x7d' :: rest => some (((key, value) :: read).reverse, rest)
            | _ => none
        | _ => none
    | _ => none

end

/-- Read a text that holds exactly one value. -/
def parse? (text : List Char) : Option Value :=
  match parseValue (2 * text.length + 2) text with
  | some (value, rest) => if (skipBlank rest).isEmpty then some value else none
  | none => none

end CodeIndex.Json
