import CodeIndex.Cancellation
import CodeIndex.Language.Basic
import CodeIndex.Syntax.Tree

/-!
# Parsers

A `TreeParser` turns the text of a file into a tree, for the languages it supports.  It may look
at the cancellation token while it works.  `TreeParser.wholeFile` treats a file as one node and
never fails, `TreeParser.fixed` answers with a given tree whatever it is asked to parse, and the
parser that knows the grammars is `Grammar.parser`.
-/

namespace CodeIndex

/-- Why a file could not be parsed or cut into chunks. -/
inductive ParseError where
  /-- The call was told to stop. -/
  | cancelled
  /-- The language has no grammar. -/
  | unsupported (language : Language)
  /-- The tree is unusable. -/
  | unusable (reason : String)
deriving DecidableEq, Repr

/-- A way to turn source text into trees. -/
structure TreeParser where
  /-- Whether a language is parsed at all. -/
  supports : Language → Bool
  /-- The tree of a text in a language. -/
  parse : List Char → Language → Cancellation → Except ParseError Tree × Cancellation

namespace TreeParser

/-- The kind of a node that is a whole file. -/
def fileKind : String := "file"

/-- One node for the whole file. -/
def fileNode (source : List Char) : Tree :=
  ⟨fileKind, none, 0, Text.byteLength source, 1, Text.lineCount source, []⟩

/-- The parser that looks into no file. -/
def wholeFile : TreeParser where
  supports _ := true
  parse source _ token :=
    match token.poll with
    | (true, token) => (.error .cancelled, token)
    | (false, token) => (.ok (fileNode source), token)

/-- A parser that answers with the same tree for every text. -/
structure Fixed where
  tree : Tree
  /-- Whether it claims to support every language or none. -/
  supports : Bool := true
  /-- Whether parsing fires the cancellation token. -/
  cancels : Bool := false
  /-- Fail with this reason instead. -/
  failure : Option String := none

/-- The parser that always answers as laid down. -/
def fixed (answer : Fixed) : TreeParser where
  supports _ := answer.supports
  parse _ _ token :=
    let token := if answer.cancels then .fired else token
    match answer.failure with
    | some reason => (.error (.unusable reason), token)
    | none => (.ok answer.tree, token)

end TreeParser

end CodeIndex
