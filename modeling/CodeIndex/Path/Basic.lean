import CodeIndex.Text.Words

/-!
# Paths

A path is a text whose pieces are separated by slashes.  Read as a sequence of `Component`s it
loses what does not matter for naming a file: repeated and trailing slashes, and single dots
anywhere but at the start.

## Main definitions

* `components` reads a path.
* `fileName?` is the name of what a path denotes, unless the path ends in a parent step;
  `extension?` is the part of that name after its last dot.
* `join` continues a path; `stripPrefix?` removes the components of another path from its front
  and answers with the remaining text.
-/

namespace CodeIndex.Path

open CodeIndex.Text (splitAtEvery)

/-- A step of a path. -/
inductive Component where
  /-- The slash at the start of an absolute path. -/
  | root
  /-- A single dot at the start of a relative path. -/
  | current
  /-- A double dot. -/
  | parent
  /-- A name. -/
  | name (text : List Char)
deriving DecidableEq, Repr

/-- The slash. -/
def isSlash (c : Char) : Bool := c == '/'

/-- The pieces between slashes that are steps of their own. -/
def bodyComponents (text : List Char) : List Component :=
  (splitAtEvery isSlash text).filterMap fun piece =>
    if piece = [] ∨ piece = ['.'] then none
    else if piece = ['.', '.'] then some .parent
    else some (.name piece)

/-- Where the steps of a path start: the leading slash or dot, if there is one, and the text after
it. -/
def splitStart : List Char → Option Component × List Char
  | '/' :: rest => (some .root, rest)
  | ['.'] => (some .current, [])
  | '.' :: '/' :: rest => (some .current, '/' :: rest)
  | text => (none, text)

/-- The steps of a path. -/
def components (path : List Char) : List Component :=
  let (start, body) := splitStart path
  start.toList ++ bodyComponents body

/-- Whether the path starts at the root. -/
def isAbsolute (path : List Char) : Bool :=
  path.head? == some '/'

/-- The name of what the path denotes. -/
def fileName? (path : List Char) : Option (List Char) :=
  match (components path).getLast? with
  | some (.name text) => some text
  | _ => none

/-- The part of a name after its last dot; a name that only starts with a dot has none. -/
def extensionOf? (name : List Char) : Option (List Char) :=
  let after := (name.reverse.takeWhile (· != '.')).reverse
  let before := name.length - after.length
  if before ≤ 1 then none else some after

/-- The extension of what the path denotes. -/
def extension? (path : List Char) : Option (List Char) :=
  (fileName? path).bind extensionOf?

/-- Continue a path; an absolute continuation replaces it. -/
def join (path continuation : List Char) : List Char :=
  if isAbsolute continuation ∨ path = [] then continuation
  else if path.getLast? == some '/' then path ++ continuation
  else path ++ '/' :: continuation

/-- A piece that is not a step. -/
def isVoid (piece : List Char) : Bool :=
  piece == [] || piece == ['.']

/-- A text without the pieces at its front that are no steps. -/
def trimFront (text : List Char) : List Char :=
  let piece := text.takeWhile (!isSlash ·)
  match _h : text.drop piece.length with
  | [] => if isVoid piece then [] else text
  | _ :: rest => if isVoid piece then trimFront rest else text
termination_by text.length
decreasing_by
  have := congrArg List.length _h
  simp only [List.length_drop, List.length_cons] at this
  omega

/-- A text without the pieces at its end that are no steps. -/
def trimBack (text : List Char) : List Char :=
  (trimFront text.reverse).reverse

/-- Drop the first step of a text that starts with one or with pieces that are none. -/
def dropStep (body : List Char) : List Char :=
  (trimFront body).dropWhile (!isSlash ·)

/-- The text after the first `count` steps of a path, without void pieces at either end. -/
def textAfter (path : List Char) (count : Nat) : List Char :=
  let (start, body) := splitStart path
  match start, count with
  | some s, 0 => (if s = .root then ['/'] else ['.']) ++ trimBack body
  | none, 0 => trimBack body
  | some _, count + 1 => trimBack (trimFront (Nat.repeat dropStep count body))
  | none, count => trimBack (trimFront (Nat.repeat dropStep count body))

/-- Remove the steps of `base` from the front of `path`. -/
def stripPrefix? (base path : List Char) : Option (List Char) :=
  let steps := components base
  if steps.isPrefixOf (components path) then some (textAfter path steps.length) else none

/-- The path without its last step, unless it has none or leads to the root. -/
def parent? (path : List Char) : Option (List Char) :=
  match (components path).getLast? with
  | none => none
  | some .root => none
  | some _ => some (trimSlashes ((trimBack path).reverse.dropWhile (!isSlash ·)).reverse)
where
  /-- A text without void pieces at its end, but with the slash or dot that it starts with. -/
  trimSlashes (text : List Char) : List Char :=
    let trimmed := trimBack text
    if trimmed = [] then text.take 1 else trimmed

/-- How steps of different kinds are ordered. -/
def Component.rank : Component → Nat
  | root => 0
  | current => 1
  | parent => 2
  | name _ => 3

/-- Whether one sequence of steps does not come after another: the first difference decides, names
being compared as texts. -/
def notAfter : List Component → List Component → Bool
  | [], _ => true
  | _ :: _, [] => false
  | .name a :: rest, .name b :: rest' =>
    if a = b then notAfter rest rest' else decide (String.ofList a < String.ofList b)
  | a :: rest, b :: rest' =>
    if a.rank = b.rank then notAfter rest rest' else a.rank < b.rank

end CodeIndex.Path
