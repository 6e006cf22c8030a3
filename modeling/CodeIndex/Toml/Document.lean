import CodeIndex.Toml.Scalar

/-!
# Reading a TOML document

A document is a sequence of lines: headers, which open a table, and keys with values, which go into
the table that was opened last.  `parse?` is the table of a document.

## Main definitions

* `keyPath?` reads a dotted key, and `value?` a value together with its parts.  Arrays and inline
  tables may be nested in each other up to `maxNesting` levels.
* `Reader` is the document read so far and the path of the open table, and `statement?` reads one
  line.
-/

namespace CodeIndex.Toml

/-- The greatest number of arrays and inline tables around a value. -/
def maxNesting : Nat := 80

/-- The characters of keys without quotes. -/
def isBareChar (c : Char) : Bool := c.isAlphanum || c == '_' || c == '-'

/-- A text without the blanks at its front. -/
def skipBlank (text : List Char) : List Char := text.dropWhile fun c => c == ' ' || c == '\t'

/-- The characters of a comment. -/
def isCommentChar (c : Char) : Bool := !isControl c

/-- A text without blanks, line ends and comments at its front. -/
def skipSpace : (fuel : Nat) → List Char → List Char
  | 0, text => text
  | fuel + 1, text =>
    match skipBlank text with
    | '#' :: rest => skipSpace fuel (rest.dropWhile isCommentChar)
    | '\n' :: rest => skipSpace fuel rest
    | '\r' :: '\n' :: rest => skipSpace fuel rest
    | text => text

/-- Read one key. -/
def key? (text : List Char) : Option (String × List Char) :=
  match text with
  | '"' :: _ => quoted? text
  | '\'' :: _ => quoted? text
  | _ =>
    let bare := text.takeWhile isBareChar
    if bare.isEmpty then none else some (String.ofList bare, text.drop bare.length)

/-- Read a dotted key with the blanks behind it. -/
def keyPath? : (fuel : Nat) → List Char → Option (List String × List Char)
  | 0, _ => none
  | fuel + 1, text =>
    match key? text with
    | none => none
    | some (key, rest) =>
      match skipBlank rest with
      | '.' :: rest => (keyPath? fuel (skipBlank rest)).map fun (keys, rest) => (key :: keys, rest)
      | rest => some ([key], rest)

mutual

/-- Read a value that `depth` arrays and inline tables surround. -/
def value? (depth : Nat) : (fuel : Nat) → List Char → Option (Value × List Char)
  | 0, _ => none
  | fuel + 1, text =>
    match text with
    | '"' :: _ => (string? text).map fun (s, rest) => (.string s, rest)
    | '\'' :: _ => (string? text).map fun (s, rest) => (.string s, rest)
    | '[' :: rest =>
      if depth < maxNesting then items? (depth + 1) fuel [] rest else none
    | '\x7b' :: rest =>
      if depth < maxNesting then members? (depth + 1) fuel [] rest else none
    | _ => token? text

/-- Read the items of an array up to its end; `read` holds the items before, in reverse. -/
def items? (depth : Nat) : (fuel : Nat) → (read : List Value) → List Char →
    Option (Value × List Char)
  | 0, _, _ => none
  | fuel + 1, read, text =>
    match skipSpace (fuel + 1) text with
    | ']' :: rest => some (.array read.reverse, rest)
    | text =>
      match value? depth fuel text with
      | none => none
      | some (item, rest) =>
        match skipSpace (fuel + 1) rest with
        | ',' :: rest => items? depth fuel (item :: read) rest
        | ']' :: rest => some (.array (item :: read).reverse, rest)
        | _ => none

/-- Read the members of an inline table up to its end. -/
def members? (depth : Nat) : (fuel : Nat) → (read : Entries) → List Char →
    Option (Value × List Char)
  | 0, _, _ => none
  | fuel + 1, read, text =>
    match skipSpace (fuel + 1) text with
    | '\x7d' :: rest => some (read.toValue, rest)
    | text =>
      match keyPath? (fuel + 1) text with
      | some (path, '=' :: rest) =>
        match value? depth fuel (skipBlank rest) with
        | none => none
        | some (value, rest) =>
          match read.insertDotted value path with
          | none => none
          | some read =>
            match skipSpace (fuel + 1) rest with
            | ',' :: rest => members? depth fuel read rest
            | '\x7d' :: rest => some (read.toValue, rest)
            | _ => none
      | _ => none

end

/-- A document that has been read in part. -/
structure Reader where
  root : Entries := []
  /-- The path of the table that was opened last. -/
  current : List String := []

/-- Read what may stand at the end of a line, and the line end unless the text is over. -/
def lineEnd? (text : List Char) : Option (List Char) :=
  let text :=
    match skipBlank text with
    | '#' :: rest => rest.dropWhile isCommentChar
    | text => text
  match text with
  | [] => some []
  | '\n' :: rest => some rest
  | '\r' :: '\n' :: rest => some rest
  | _ => none

/-- Read a header behind its opening brackets. -/
def header? (closing : List Char) (opened : String → Entries → Option Entries) (reader : Reader)
    (text : List Char) : Option (Reader × List Char) := do
  let (path, rest) ← keyPath? (text.length + 1) (skipBlank text)
  let key ← path.getLast?
  let root ← Entries.within (opened key) path.dropLast reader.root
  if closing.isPrefixOf rest then some (⟨root, path⟩, rest.drop closing.length) else none

/-- Read a key with its value. -/
def assignment? (reader : Reader) (text : List Char) : Option (Reader × List Char) := do
  let (path, rest) ← keyPath? (text.length + 1) text
  let '=' :: rest := rest | none
  let (value, rest) ← value? 0 (2 * rest.length + 2) (skipBlank rest)
  let root ← Entries.within (Entries.insertDotted value path) reader.current reader.root
  some ({ reader with root }, rest)

/-- Read one line, which may hold nothing. -/
def statement? (reader : Reader) (text : List Char) : Option (Reader × List Char) :=
  match skipBlank text with
  | [] => some (reader, [])
  | '#' :: rest => some (reader, '#' :: rest)
  | '\n' :: rest => some (reader, '\n' :: rest)
  | '\r' :: '\n' :: rest => some (reader, '\n' :: rest)
  | '[' :: '[' :: rest => header? [']', ']'] Entries.openElement reader rest
  | '[' :: rest => header? [']'] Entries.openTable reader rest
  | text => assignment? reader text

/-- Read the remaining lines. -/
def statements? : (fuel : Nat) → Reader → List Char → Option Reader
  | 0, _, _ => none
  | _ + 1, reader, [] => some reader
  | fuel + 1, reader, text =>
    match statement? reader text with
    | none => none
    | some (reader, rest) => (lineEnd? rest).bind (statements? fuel reader)

/-- The mark that may precede a text. -/
def byteOrderMark : Char := '\uFEFF'

/-- The table of a document. -/
def parse? (text : List Char) : Option (List (String × Value)) :=
  let text := match text with
    | c :: rest => if c = byteOrderMark then rest else text
    | [] => []
  (statements? (text.length + 1) {} text).map fun reader => entryValues reader.root

end CodeIndex.Toml
