/-!
# JSON values

A JSON text is read as a tree of values that keep what the text says: numbers and the bodies of
strings stay as they are written, and the members of an object keep their order and repetitions.
What a number or a string denotes is decided where it is used, because a value that nobody uses may
hold a number without a meaning or half of a surrogate pair.

## Main definitions

* `Value` is the tree, `Value.render` its compact text.
* `escape` writes a text as the body of a string, `unescape?` reads a body; a body with a lone
  surrogate denotes nothing.
-/

namespace CodeIndex.Json

/-- A JSON value as it is written. -/
inductive Value where
  | null
  | bool (value : Bool)
  | number (text : List Char)
  | string (body : List Char)
  | array (items : List Value)
  | object (members : List (List Char × Value))
deriving Inhabited

/-- A hexadecimal digit in lower case. -/
def hexDigit (n : Nat) : Char :=
  if n < 10 then Char.ofNat (48 + n) else Char.ofNat (87 + n)

/-- How a character is written inside a string. -/
def escapeChar (c : Char) : List Char :=
  if c == '"' then ['\\', '"']
  else if c == '\\' then ['\\', '\\']
  else if c == '\n' then ['\\', 'n']
  else if c == '\r' then ['\\', 'r']
  else if c == '\t' then ['\\', 't']
  else if c == '\x08' then ['\\', 'b']
  else if c == '\x0c' then ['\\', 'f']
  else if c.val < 0x20 then
    ['\\', 'u', '0', '0', hexDigit (c.toNat / 16), hexDigit (c.toNat % 16)]
  else [c]

/-- The body of a string that denotes a text. -/
def escape (text : List Char) : List Char := text.flatMap escapeChar

/-- The value of a hexadecimal digit. -/
def hexValue? (c : Char) : Option Nat :=
  if '0' ≤ c ∧ c ≤ '9' then some (c.toNat - 48)
  else if 'a' ≤ c ∧ c ≤ 'f' then some (c.toNat - 87)
  else if 'A' ≤ c ∧ c ≤ 'F' then some (c.toNat - 55)
  else none

/-- The value of four hexadecimal digits. -/
def hexValue4? (a b c d : Char) : Option Nat := do
  let a ← hexValue? a
  let b ← hexValue? b
  let c ← hexValue? c
  let d ← hexValue? d
  return ((a * 16 + b) * 16 + c) * 16 + d

/-- What a backslash and a letter denote. -/
def simpleEscape? (c : Char) : Option Char :=
  match c with
  | '"' => some '"'
  | '\\' => some '\\'
  | '/' => some '/'
  | 'b' => some '\x08'
  | 'f' => some '\x0c'
  | 'n' => some '\n'
  | 'r' => some '\r'
  | 't' => some '\t'
  | _ => none

/-- Read the body of a string, given the characters read so far in reverse and, if the last unit
was the first half of a surrogate pair, that half. -/
def unescapeFrom (read : List Char) (half : Option Nat) : List Char → Option (List Char)
  | [] => if half.isSome then none else some read.reverse
  | '\\' :: 'u' :: a :: b :: c :: d :: rest =>
    match hexValue4? a b c d, half with
    | none, _ => none
    | some unit, none =>
      if 0xD800 ≤ unit ∧ unit < 0xDC00 then unescapeFrom read (some unit) rest
      else if 0xDC00 ≤ unit ∧ unit < 0xE000 then none
      else unescapeFrom (Char.ofNat unit :: read) none rest
    | some unit, some first =>
      if 0xDC00 ≤ unit ∧ unit < 0xE000 then
        let code := 0x10000 + (first - 0xD800) * 0x400 + (unit - 0xDC00)
        unescapeFrom (Char.ofNat code :: read) none rest
      else none
  | '\\' :: c :: rest =>
    if half.isSome then none
    else match simpleEscape? c with
      | some meant => unescapeFrom (meant :: read) none rest
      | none => none
  | c :: rest => if half.isSome then none else unescapeFrom (c :: read) none rest

/-- The text that the body of a string denotes. -/
def unescape? (body : List Char) : Option (List Char) := unescapeFrom [] none body

namespace Value

/-- A string that denotes a text. -/
def ofString (text : String) : Value := .string (escape text.toList)

/-- A natural number. -/
def ofNat (n : Nat) : Value := .number (Nat.toDigits 10 n)

/-- An integer. -/
def ofInt (i : Int) : Value :=
  .number (if i < 0 then '-' :: Nat.toDigits 10 i.natAbs else Nat.toDigits 10 i.natAbs)

/-- A list of strings. -/
def ofStrings (texts : List String) : Value := .array (texts.map ofString)

/-- An object with the given fields in order. -/
def ofFields (fields : List (String × Value)) : Value :=
  .object (fields.map fun field => (escape field.1.toList, field.2))

mutual

/-- The compact text of a value. -/
def render : Value → List Char
  | .null => ['n', 'u', 'l', 'l']
  | .bool true => ['t', 'r', 'u', 'e']
  | .bool false => ['f', 'a', 'l', 's', 'e']
  | .number text => text
  | .string body => '"' :: (body ++ ['"'])
  | .array items => '[' :: (renderItems items ++ [']'])
  | .object members => '\x7b' :: (renderMembers members ++ ['\x7d'])

/-- The texts of the items of an array, separated by commas. -/
def renderItems : List Value → List Char
  | [] => []
  | [item] => item.render
  | item :: rest => item.render ++ ',' :: renderItems rest

/-- The texts of the members of an object, separated by commas. -/
def renderMembers : List (List Char × Value) → List Char
  | [] => []
  | [(key, value)] => '"' :: (key ++ '"' :: ':' :: value.render)
  | (key, value) :: rest =>
    '"' :: (key ++ '"' :: ':' :: (value.render ++ ',' :: renderMembers rest))

end

/-- The compact text of a value. -/
def toText (value : Value) : String := String.ofList value.render

end Value

end CodeIndex.Json
