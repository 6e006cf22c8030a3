import CodeIndex.Grammar.Scan
import CodeIndex.Syntax.Tree

/-!
# Grammars

A grammar is data: patterns that describe what a language's sources look like and which of its
parts become nodes.  The machine that runs grammars is in `CodeIndex.Grammar.Machine`.

A pattern is made of tokens.  Before a token there may be blanks and comments, which the grammar
describes apart from the patterns; whether a token may stand on another line than the one before is
part of the state in which a pattern is matched, so that languages in which line ends and
indentation have a meaning can be described as well.

## Main definitions

* `Cursor` is a place in a source, `Node` a part of the source that a pattern has made a node of.
* `Gap` is what lies between two tokens, and `Extras` the blanks and comments of a language.
* `Pattern` are the patterns and `CodeIndex.Grammar` the grammars.
-/

namespace CodeIndex.Grammar

/-- A place in a source: the text from there on, and the bytes and line ends before it. -/
structure Cursor where
  rest : List Char
  byte : Nat := 0
  row : Nat := 0

namespace Cursor

/-- The place behind the next character. -/
def step (c : Cursor) : Cursor :=
  match c.rest with
  | [] => c
  | x :: rest => ⟨rest, c.byte + x.utf8Size, if x = '\n' then c.row + 1 else c.row⟩

/-- The place behind some characters. -/
def advance : (count : Nat) → Cursor → Cursor
  | 0, c => c
  | count + 1, c => advance count c.step

/-- Going on drops characters from the front of the rest. -/
theorem rest_advance (count : Nat) (c : Cursor) : (c.advance count).rest = c.rest.drop count := by
  induction count generalizing c with
  | zero => simp [advance]
  | succ count ih =>
    rw [advance, ih, step]
    split <;> rename_i h <;> simp [h]

/-- The text between two places. -/
def textTo (start stop : Cursor) : List Char :=
  (Text.takeBytes? [] (stop.byte - start.byte) start.rest).getD []

end Cursor

/-- A part of a source with its kind, its role in the node it is part of, and its own parts. -/
structure Node where
  kind : String
  role : Option String := none
  start : Cursor
  stop : Cursor
  children : List Node := []
  /-- Whether it is a comment. -/
  isComment : Bool := false

/-- A form of comments. -/
structure CommentForm where
  kind : String
  /-- The comment that a text starts with. -/
  scan : Scan
  /-- The parts of a comment: their kinds and the places where they start and end. -/
  parts : List Char → List (String × Nat × Nat) := fun _ => []
  /-- Whether what follows a line end in it still counts as the same line. -/
  joinsLines : Bool := false

/-- What may stand between tokens. -/
structure Extras where
  /-- The blank that a text starts with. -/
  blank : Scan
  /-- What a text starts with that makes one line of two. -/
  joint : Scan := fun _ => none
  comments : List CommentForm := []

/-- A comment between two tokens. -/
structure Remark where
  node : Node
  /-- Whether it is on another line than the token before it. -/
  isFresh : Bool
  /-- The column it starts at, if it is the first of its line. -/
  column : Nat

/-- What lies between two tokens. -/
structure Gap where
  /-- The place of the next token. -/
  next : Cursor
  /-- The comments, the last one first. -/
  remarks : List Remark := []
  /-- Whether the next token is on another line, or the first of the source. -/
  isFresh : Bool
  /-- The column of the next token, if it is the first of its line. -/
  column : Nat := 0

/-- What a source, or a part of it, looks like; `ρ` are the names of patterns. -/
inductive Pattern (ρ : Type) where
  /-- A token; it is a node if it has a kind.  An attached token has no gap before it. -/
  | token (kind : Option String) (attached : Bool) (scan : Scan)
  /-- A pattern that has a name. -/
  | rule (name : ρ)
  /-- One pattern after the other. -/
  | seq (parts : List (Pattern ρ))
  /-- The first of some patterns that matches. -/
  | alt (choices : List (Pattern ρ))
  /-- A pattern any number of times. -/
  | many (part : Pattern ρ)
  /-- What the pattern matches becomes a node. -/
  | node (kind : String) (part : Pattern ρ)
  /-- The node that is open is of another kind than was said when it was opened. -/
  | becomes (kind : String)
  /-- The nodes that the pattern makes play a role. -/
  | role (name : String) (part : Pattern ρ)
  /-- The node before and what the pattern matches become one node, in which the node before plays a
  role. -/
  | around (kind : String) (role : Option String) (part : Pattern ρ)
  /-- The pattern would match, but nothing is taken. -/
  | ahead (part : Pattern ρ)
  /-- The pattern would not match. -/
  | absent (part : Pattern ρ)
  /-- The comments before the next token, up to the first that fails the test, which is told the
  indentation in force, are part of the open node. -/
  | remarks (test : Nat → Remark → Bool)
  /-- A property of the gap before the next token. -/
  | gap (test : Gap → Bool)
  /-- Within the pattern, tokens may or may not stand on other lines. -/
  | spanning (allowed : Bool) (part : Pattern ρ)
  /-- The pattern starts a line with a greater indentation, and keeps to it. -/
  | indented (part : Pattern ρ)
  /-- The next token starts a line with the indentation in force. -/
  | aligned

end CodeIndex.Grammar

namespace CodeIndex

open Grammar in
/-- A language: what its sources consist of, the patterns with names, and what stands between
tokens. -/
structure Grammar (ρ : Type) where
  /-- The kind of the node of a whole source. -/
  root : String
  /-- What a source is a sequence of. -/
  item : Pattern ρ
  /-- The pattern of a name. -/
  rules : ρ → Pattern ρ
  extras : Extras
  /-- Whether tokens may stand on other lines unless a pattern says otherwise. -/
  spanning : Bool := true

end CodeIndex
