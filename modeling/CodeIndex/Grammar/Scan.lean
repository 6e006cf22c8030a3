import CodeIndex.Text.Alphanumeric

/-!
# Scanners

A scanner looks at the front of a text and tells how many characters of it belong together, or that
the text does not start with what it looks for.  Tokens, blanks and comments are described by
scanners, which are put together like regular expressions; none of them goes back to another
reading once one has been found.

## Main definitions

* `Scan` is the type of scanners, with `Scan.one`, `Scan.run`, `Scan.text`, `Scan.seq`, `Scan.alt`,
  `Scan.opt` and `Scan.many`.
* `Scan.word` is a word that no further character of a name follows, `Scan.name` a name that is none
  of some words, and `Scan.longest` the longest of some texts.
-/

namespace CodeIndex.Grammar

/-- The number of characters at the front of a text that belong together. -/
abbrev Scan := List Char → Option Nat

namespace Scan

/-- A character of a class. -/
def one (p : Char → Bool) : Scan
  | c :: _ => if p c then some 1 else none
  | [] => none

/-- The characters of a class, as many as there are. -/
def run (p : Char → Bool) : Scan := fun text => some (text.takeWhile p).length

/-- At least one character of a class. -/
def run1 (p : Char → Bool) : Scan := fun text =>
  match (text.takeWhile p).length with
  | 0 => none
  | length => some length

/-- Given characters. -/
def chars (expected : List Char) : Scan := fun text =>
  if expected.isPrefixOf text then some expected.length else none

/-- A given text. -/
def text (expected : String) : Scan := chars expected.toList

/-- One scanner after the other. -/
def seq : List Scan → Scan
  | [], _ => some 0
  | scan :: scans, text =>
    (scan text).bind fun length => (seq scans (text.drop length)).map (length + ·)

/-- The first scanner that finds what it looks for. -/
def alt (scans : List Scan) : Scan := fun text => scans.findSome? (· text)

/-- What a scanner finds, or nothing. -/
def opt (scan : Scan) : Scan := fun text => some ((scan text).getD 0)

/-- What a scanner finds, at most `fuel` times, added to a number of characters. -/
def manyFrom (scan : Scan) : (fuel : Nat) → (found : Nat) → List Char → Nat
  | 0, found, _ => found
  | fuel + 1, found, text =>
    match scan text with
    | none | some 0 => found
    | some length => manyFrom scan fuel (found + length) (text.drop length)

/-- What a scanner finds, as often as it does. -/
def many (scan : Scan) : Scan := fun text => some (manyFrom scan text.length 0 text)

/-- What a scanner finds, as often as it does and at least once. -/
def many1 (scan : Scan) : Scan := seq [scan, many scan]

/-- The scanner's text, unless another one would find something behind it. -/
def notBefore (scan after : Scan) : Scan := fun text =>
  (scan text).bind fun length =>
    if (after (text.drop length)).isSome then none else some length

/-- The scanner's text, unless another one would find something there. -/
def butNot (scan other : Scan) : Scan := fun text =>
  if (other text).isSome then none else scan text

/-- The characters before the first place at which a scanner finds something, or all there are. -/
def before (scan : Scan) : Scan := fun text => some (go 0 text)
where
  /-- Count the characters from a place on. -/
  go (count : Nat) : List Char → Nat
    | [] => count
    | c :: rest => if (scan (c :: rest)).isSome then count else go (count + 1) rest

/-- The end of a text or of a line: no characters. -/
def lineEnd : Scan
  | [] | '\n' :: _ | '\r' :: '\n' :: _ => some 0
  | _ => none

/-- The rest of the line. -/
def restOfLine : Scan := run (· != '\n')

/-- A character that can be part of a name in every language. -/
def isNamePart (c : Char) : Bool := c == '_' || Text.isNameChar c

/-- Given characters, and no further one of a name if the last one is one. -/
def whole (expected : List Char) : Scan :=
  if (expected.getLast?.map isNamePart).getD false then notBefore (chars expected) (one isNamePart)
  else chars expected

/-- A given word or sign. -/
def word (expected : String) : Scan := whole expected.toList

/-- A name with a given start and given other characters that is none of some words. -/
def name (start part : Char → Bool) (reserved : List String) : Scan := fun text =>
  match text with
  | [] => none
  | c :: rest =>
    if start c then
      let others := rest.takeWhile part
      if reserved.contains (String.ofList (c :: others)) then none else some (others.length + 1)
    else none

/-- The longest of some texts that a text starts with. -/
def longestOf (candidates : List (List Char)) (text : List Char) : List Char :=
  candidates.foldl
    (fun best candidate =>
      if best.length < candidate.length && candidate.isPrefixOf text then candidate else best) []

/-- The longest of some texts, if it is one of those that are wanted. -/
def longest (candidates wanted : List (List Char)) : Scan := fun text =>
  let found := longestOf candidates text
  if wanted.contains found then some found.length else none

end Scan

end CodeIndex.Grammar
