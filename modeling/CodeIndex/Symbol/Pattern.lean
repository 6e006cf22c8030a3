/-!
# Patterns that find names

A declaration is recognised by a pattern: a sequence of literals, character classes and groups, one
of which captures the declared name.  Matching is greedy with backtracking: each repetition takes
as much as it can and gives back as little as the rest of the pattern needs, and of several
alternatives the first that lets the rest match wins.

## Main definitions

* `Pattern` is an item of a sequence, and `matchItems` matches a sequence at the start of a text.
* `captures` lists the captured names of the successive matches in a text: the leftmost match
  first, and each further one behind the end of the one before.
-/

namespace CodeIndex.Symbol

/-- An item of a pattern. -/
inductive Pattern where
  /-- The given characters. -/
  | literal (text : List Char)
  /-- One character of a class. -/
  | one (p : Char → Bool)
  /-- As many characters of a class as possible, at least `least`. -/
  | many (least : Nat) (p : Char → Bool)
  /-- Like `many 1`, and what it takes is the captured name. -/
  | capture (p : Char → Bool)
  /-- The first sequence that lets the rest match. -/
  | oneOf (alternatives : List (List Pattern))
  /-- The sequence as many times as possible, at least `least` times. -/
  | repeated (least : Nat) (items : List Pattern)

/-- All ways to take characters of a class from the front of a text, the longest first.  A way is
the taken characters, last first, and the text after them; `taken` and `found` hold the characters
and the shorter ways seen before. -/
def greedyRuns (p : Char → Bool) (taken : List Char) (found : List (List Char × List Char)) :
    List Char → List (List Char × List Char)
  | [] => (taken, []) :: found
  | c :: rest =>
    if p c then greedyRuns p (c :: taken) ((taken, c :: rest) :: found) rest
    else (taken, c :: rest) :: found

/-- The ways to take at least `least` characters of a class, the longest first. -/
def runsOfAtLeast (least : Nat) (p : Char → Bool) (text : List Char) :
    List (List Char × List Char) :=
  let front := text.take least
  if front.length = least ∧ front.all p then greedyRuns p front.reverse [] (text.drop least) else []

/-- A match: the captured name, last character first, and the text behind the match. -/
structure Match where
  captured : List Char
  rest : List Char

/-- Match a sequence of items at the start of a text.  `fuel` bounds the number of items that are
matched one inside the continuation of another. -/
def matchItems : (fuel : Nat) → List Pattern → (captured text : List Char) → Option Match
  | 0, _, _, _ => none
  | _ + 1, [], captured, text => some ⟨captured, text⟩
  | fuel + 1, item :: items, captured, text =>
    match item with
    | .literal expected =>
      if expected.isPrefixOf text then matchItems fuel items captured (text.drop expected.length)
      else none
    | .one p =>
      match text with
      | [] => none
      | c :: rest => if p c then matchItems fuel items captured rest else none
    | .many least p =>
      (runsOfAtLeast least p text).findSome? fun run => matchItems fuel items captured run.2
    | .capture p =>
      (runsOfAtLeast 1 p text).findSome? fun run => matchItems fuel items run.1 run.2
    | .oneOf alternatives =>
      alternatives.findSome? fun alternative =>
        matchItems fuel (alternative ++ items) captured text
    | .repeated (least + 1) body =>
      matchItems fuel (body ++ .repeated least body :: items) captured text
    | .repeated 0 body =>
      (matchItems fuel (body ++ .repeated 0 body :: items) captured text).or
        (matchItems fuel items captured text)

/-- Number of items to allow for: every repetition takes a character, and between two characters
each item of the pattern is met at most once. -/
def matchFuel (items : List Pattern) (text : List Char) : Nat :=
  16 * (items.length + 1) * (text.length + 1)

/-- The captured names of the successive matches, given an upper bound on their number, added to
`found`, which holds the earlier names in reverse. -/
def capturesFrom (items : List Pattern) (fuel : Nat) (found : List String) :
    (steps : Nat) → (text : List Char) → List String
  | 0, _ => found.reverse
  | _ + 1, [] => found.reverse
  | steps + 1, c :: rest =>
    match matchItems fuel items [] (c :: rest) with
    | some m => capturesFrom items fuel (String.ofList m.captured.reverse :: found) steps m.rest
    | none => capturesFrom items fuel found steps rest

/-- The captured names of the successive matches of a pattern in a text. -/
def captures (items : List Pattern) (text : List Char) : List String :=
  capturesFrom items (matchFuel items text) [] (text.length + 1) text

end CodeIndex.Symbol
