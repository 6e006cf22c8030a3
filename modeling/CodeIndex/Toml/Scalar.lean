import CodeIndex.Json.Codec
import CodeIndex.Toml.Table

/-!
# Numbers, moments and strings of a TOML document

Values without parts.  A number, a truth value or a moment is one token of letters, digits and a
few signs, and `ofToken?` decides what a token denotes; only a date and a time that are separated by
a blank are two tokens.  Strings come in four forms, which differ in their quotes and in whether a
backslash has a meaning.

## Main definitions

* `grouped?` reads digits that underscores may separate, `integer?` and `float?` the two kinds of
  numbers.
* `isDate`, `isTime` and `isMoment` are the grammar of moments.
* `basicText` and `literalText` read the inside of strings.
-/

namespace CodeIndex.Toml

/-- The value of a digit in a base of at most sixteen. -/
def digit? (base : Nat) (c : Char) : Option Nat :=
  (Json.hexValue? c).filter (· < base)

/-- The value of digits that single underscores may separate, added to what was read before. -/
def groupedFrom? (base read : Nat) : List Char → Option Nat
  | [] => some read
  | '_' :: c :: rest => (digit? base c).bind fun d => groupedFrom? base (read * base + d) rest
  | c :: rest => (digit? base c).bind fun d => groupedFrom? base (read * base + d) rest

/-- The value of at least one digit. -/
def grouped? (base : Nat) : List Char → Option Nat
  | [] => none
  | c :: rest => (digit? base c).bind fun d => groupedFrom? base d rest

/-- The value of decimal digits without a needless zero in front. -/
def plain? : List Char → Option Nat
  | ['0'] => some 0
  | '0' :: _ => none
  | digits => grouped? 10 digits

/-- Take the sign off a number. -/
def unsigned : List Char → Bool × List Char
  | '-' :: rest => (true, rest)
  | '+' :: rest => (false, rest)
  | text => (false, text)

/-- The value of an integer. -/
def integer? : List Char → Option Int
  | '0' :: 'x' :: digits => (grouped? 16 digits).map Int.ofNat
  | '0' :: 'o' :: digits => (grouped? 8 digits).map Int.ofNat
  | '0' :: 'b' :: digits => (grouped? 2 digits).map Int.ofNat
  | text =>
    let (negative, digits) := unsigned text
    (plain? digits).map fun n => if negative then -(n : Int) else n

/-- Whether a character belongs to decimal digits. -/
def isDecimalChar (c : Char) : Bool := c.isDigit || c == '_'

/-- The exponent of a number, zero if there is none. -/
def exponent? : List Char → Option Int
  | [] => some 0
  | e :: text =>
    if e == 'e' || e == 'E' then
      let (negative, digits) := unsigned text
      (grouped? 10 digits).map fun n => if negative then -(n : Int) else n
    else none

/-- The digits behind the point and the exponent. -/
def fraction? : List Char → Option (List Char × Int)
  | '.' :: text =>
    let digits := text.takeWhile isDecimalChar
    if (grouped? 10 digits).isSome then
      (exponent? (text.drop digits.length)).map fun e => (digits.filter (· != '_'), e)
    else none
  | text => (exponent? text).map fun e => ([], e)

/-- The bits of a number with a sign in front. -/
def signed (negative : Bool) (bits : UInt64) : UInt64 :=
  if negative then bits ||| 0x8000000000000000 else bits

/-- The bits of a number with a fraction or an exponent, unless it is too large. -/
def float? (text : List Char) : Option UInt64 :=
  let (negative, text) := unsigned text
  match text with
  | ['i', 'n', 'f'] => some (signed negative 0x7FF0000000000000)
  | ['n', 'a', 'n'] => some (signed negative 0x7FF8000000000000)
  | _ =>
    let digits := text.takeWhile isDecimalChar
    match plain? digits, fraction? (text.drop digits.length) with
    | some n, some (behind, e) =>
      let value := (Number.Decimal.mk false
        (behind.foldl (fun n c => n * 10 + (c.toNat - 48)) n) (e - behind.length)).toFloat
      if value.isFinite then some (signed negative value.toBits) else none
    | _, _ => none

/-- The value of digits of a fixed count. -/
def fixedDigits? (count : Nat) (text : List Char) : Option (Nat × List Char) :=
  let digits := text.take count
  if digits.length = count ∧ digits.all Char.isDigit then
    some (Json.ofDigits digits, text.drop count)
  else none

/-- Number of days of a month. -/
def daysOf (year month : Nat) : Nat :=
  if month = 2 then
    if year % 4 = 0 ∧ (year % 100 ≠ 0 ∨ year % 400 = 0) then 29 else 28
  else if month ∈ [4, 6, 9, 11] then 30
  else 31

/-- Take a date off the front of a text. -/
def dropDate? (text : List Char) : Option (List Char) := do
  let (year, text) ← fixedDigits? 4 text
  let '-' :: text := text | none
  let (month, text) ← fixedDigits? 2 text
  let '-' :: text := text | none
  let (day, text) ← fixedDigits? 2 text
  if 1 ≤ month ∧ month ≤ 12 ∧ 1 ≤ day ∧ day ≤ daysOf year month then some text else none

/-- Take a time off the front of a text; the seconds may be missing. -/
def dropTime? (text : List Char) : Option (List Char) := do
  let (hour, text) ← fixedDigits? 2 text
  let ':' :: text := text | none
  let (minute, text) ← fixedDigits? 2 text
  if 23 < hour ∨ 59 < minute then none
  else
    match text with
    | ':' :: text =>
      let (second, text) ← fixedDigits? 2 text
      if 60 < second then none
      else
        match text with
        | '.' :: c :: rest => if c.isDigit then some (rest.dropWhile Char.isDigit) else none
        | text => some text
    | text => some text

/-- Whether a text is the offset of a time. -/
def isOffset : List Char → Bool
  | ['Z'] => true
  | ['z'] => true
  | [s, a, b, ':', c, d] =>
    (s == '+' || s == '-') && [a, b, c, d].all Char.isDigit &&
      decide (Json.ofDigits [a, b] ≤ 23) && decide (Json.ofDigits [c, d] ≤ 59)
  | _ => false

/-- Whether a text is a time with or without an offset. -/
def isTime (offset : Bool) (text : List Char) : Bool :=
  match dropTime? text with
  | some rest => rest.isEmpty || (offset && isOffset rest)
  | none => false

/-- Whether a text is a date, a time, or both. -/
def isMoment (text : List Char) : Bool :=
  match dropDate? text with
  | some [] => true
  | some (c :: time) => (c == 'T' || c == 't' || c == ' ') && isTime true time
  | none => isTime false text

/-- The value of a token. -/
def ofToken? (token : List Char) : Option Value :=
  if token = "true".toList then some (.boolean true)
  else if token = "false".toList then some (.boolean false)
  else if isMoment token then some .moment
  else
    match integer? token with
    | some n => some (.integer n)
    | none => (float? token).map .float

/-- The characters of tokens. -/
def isTokenChar (c : Char) : Bool :=
  c.isAlphanum || c == '_' || c == '+' || c == '-' || c == '.' || c == ':'

/-- Read a token off the front of a text; a time may follow a date behind a blank. -/
def token? (text : List Char) : Option (Value × List Char) :=
  let token := text.takeWhile isTokenChar
  let rest := text.drop token.length
  let token :=
    match dropDate? token, rest with
    | some [], ' ' :: c :: more =>
      if c.isDigit then token ++ ' ' :: (c :: more).takeWhile isTokenChar else token
    | _, _ => token
  (ofToken? token).map fun value => (value, text.drop token.length)

/-- Characters that may not be written as they are. -/
def isControl (c : Char) : Bool := (c.val < 0x20 && c != '\t') || c == '\x7f'

/-- The character that a hexadecimal code denotes. -/
def ofCode? (digits : List Char) : Option Char :=
  (digits.foldlM (fun n c => (digit? 16 c).map (n * 16 + ·)) 0).bind fun n =>
    if n.isValidChar then some (Char.ofNat n) else none

/-- The character that stands behind a backslash, and how many characters denote it. -/
def escape? : List Char → Option (Char × Nat)
  | 'b' :: _ => some ('\x08', 1)
  | 't' :: _ => some ('\t', 1)
  | 'n' :: _ => some ('\n', 1)
  | 'f' :: _ => some ('\x0c', 1)
  | 'r' :: _ => some ('\r', 1)
  | 'e' :: _ => some ('\x1b', 1)
  | '"' :: _ => some ('"', 1)
  | '\\' :: _ => some ('\\', 1)
  | 'x' :: text => coded 2 text
  | 'u' :: text => coded 4 text
  | 'U' :: text => coded 8 text
  | _ => none
where
  /-- The character of a code with a fixed number of digits. -/
  coded (count : Nat) (text : List Char) : Option (Char × Nat) :=
    if (text.take count).length = count then
      (ofCode? (text.take count)).map fun c => (c, count + 1)
    else none

/-- Whether a line ends behind blanks. -/
def endsLine (text : List Char) : Bool :=
  match text.dropWhile fun c => c == ' ' || c == '\t' with
  | '\n' :: _ => true
  | '\r' :: '\n' :: _ => true
  | _ => false

/-- The characters between lines. -/
def isSpace (c : Char) : Bool := c == ' ' || c == '\t' || c == '\n' || c == '\r'

/-- Read the inside of a string in single or double quotes; `read` holds the characters before, in
reverse, and `escapes` says whether a backslash has a meaning. -/
def lineText (quote : Char) (escapes : Bool) : (fuel : Nat) → (read : List Char) → List Char →
    Option (List Char × List Char)
  | 0, _, _ => none
  | _ + 1, _, [] => none
  | fuel + 1, read, c :: rest =>
    if c = quote then some (read.reverse, rest)
    else if c = '\\' ∧ escapes then
      (escape? rest).bind fun (e, count) =>
        lineText quote escapes fuel (e :: read) (rest.drop count)
    else if isControl c then none
    else lineText quote escapes fuel (c :: read) rest

/-- Read the inside of a string in threefold quotes. -/
def blockText (quote : Char) (escapes : Bool) : (fuel : Nat) → (read : List Char) → List Char →
    Option (List Char × List Char)
  | 0, _, _ => none
  | _ + 1, _, [] => none
  | fuel + 1, read, c :: rest =>
    if c = quote then
      let quotes := (c :: rest).takeWhile (· == quote)
      if quotes.length < 3 then
        blockText quote escapes fuel (quotes ++ read) ((c :: rest).drop quotes.length)
      else if 5 < quotes.length then none
      else some ((quotes.drop 3 ++ read).reverse, (c :: rest).drop quotes.length)
    else if c = '\\' ∧ escapes then
      if endsLine rest then blockText quote escapes fuel read (rest.dropWhile isSpace)
      else
        (escape? rest).bind fun (e, count) =>
          blockText quote escapes fuel (e :: read) (rest.drop count)
    else if c = '\r' ∧ rest.head? = some '\n' then
      blockText quote escapes fuel ('\n' :: read) (rest.drop 1)
    else if isControl c ∧ c ≠ '\n' then none
    else blockText quote escapes fuel (c :: read) rest

/-- A text without a line end at its front. -/
def skipLineEnd : List Char → List Char
  | '\n' :: rest => rest
  | '\r' :: '\n' :: rest => rest
  | text => text

/-- Read a string in single or double quotes. -/
def quoted? : List Char → Option (String × List Char)
  | '"' :: rest => asString (lineText '"' true (rest.length + 1) [] rest)
  | '\'' :: rest => asString (lineText '\'' false (rest.length + 1) [] rest)
  | _ => none
where
  /-- The text of a string and what follows it. -/
  asString (read : Option (List Char × List Char)) : Option (String × List Char) :=
    read.map fun (text, rest) => (String.ofList text, rest)

/-- Read a string of any form. -/
def string? : List Char → Option (String × List Char)
  | '"' :: '"' :: '"' :: rest =>
    quoted?.asString (blockText '"' true (rest.length + 1) [] (skipLineEnd rest))
  | '\'' :: '\'' :: '\'' :: rest =>
    quoted?.asString (blockText '\'' false (rest.length + 1) [] (skipLineEnd rest))
  | text => quoted? text

end CodeIndex.Toml
