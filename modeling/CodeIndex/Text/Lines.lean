/-!
# Lines and byte offsets of a text

A text is a list of characters.  Two coordinates point into it: the line number, which counts the
newlines before a character, and the byte offset, which counts the bytes of the characters before
it in UTF-8.

## Main definitions

* `lines` cuts a text after each newline, so that every line keeps its terminator and
  `lines_flatten` holds: the lines put together are the text.
* `lineCount` counts a last line without a terminator and never answers zero.
* `byteLength` and `slice?` measure and cut a text by byte offsets; a slice exists only between
  character boundaries.
-/

namespace CodeIndex.Text

/-- Put a character in front of a list of lines: a newline is a line of its own, any other
character joins the line that follows it. -/
def consLine (c : Char) : List (List Char) → List (List Char)
  | [] => [[c]]
  | line :: rest => if c == '\n' then [c] :: line :: rest else (c :: line) :: rest

/-- The lines of a text, each with its newline; only the last one may lack it. -/
def lines (text : List Char) : List (List Char) :=
  text.foldr consLine []

/-- Number of lines; the empty text has one line. -/
def lineCount (text : List Char) : Nat :=
  max 1 (lines text).length

/-- A character before the first line is a character before the text. -/
theorem consLine_flatten (c : Char) (ls : List (List Char)) :
    (consLine c ls).flatten = c :: ls.flatten := by
  cases ls with
  | nil => rfl
  | cons line rest => by_cases h : c = '\n' <;> simp [consLine, h]

/-- The lines of a text, put together again, are the text. -/
theorem lines_flatten (text : List Char) : (lines text).flatten = text := by
  induction text with
  | nil => rfl
  | cons c rest ih => simpa [lines, consLine_flatten] using ih

/-- Number of bytes of the text in UTF-8. -/
def byteLength (text : List Char) : Nat :=
  text.foldl (fun n c => n + c.utf8Size) 0

/-- What remains after exactly `count` bytes; nothing when that is no character boundary. -/
def dropBytes? : Nat → List Char → Option (List Char)
  | 0, text => some text
  | _ + 1, [] => none
  | count + 1, c :: rest =>
    if c.utf8Size ≤ count + 1 then dropBytes? (count + 1 - c.utf8Size) rest else none

/-- The first `count` bytes, put before `taken`, which holds earlier characters in reverse. -/
def takeBytes? (taken : List Char) : Nat → List Char → Option (List Char)
  | 0, _ => some taken.reverse
  | _ + 1, [] => none
  | count + 1, c :: rest =>
    if c.utf8Size ≤ count + 1 then takeBytes? (c :: taken) (count + 1 - c.utf8Size) rest else none

/-- The text from byte `start` up to byte `stop`, if both are character boundaries in order. -/
def slice? (text : List Char) (start stop : Nat) : Option (List Char) :=
  if start ≤ stop then (dropBytes? start text).bind (takeBytes? [] (stop - start)) else none

/-- Number of newlines before byte `offset`. -/
def newlinesBefore : Nat → List Char → Nat
  | offset, text => go 0 offset text
where
  /-- Continue the count from `seen`. -/
  go (seen : Nat) : Nat → List Char → Nat
    | _, [] => seen
    | 0, _ => seen
    | offset + 1, c :: rest =>
      go (if c == '\n' then seen + 1 else seen) (offset + 1 - c.utf8Size) rest

end CodeIndex.Text
