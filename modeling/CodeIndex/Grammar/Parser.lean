import CodeIndex.Grammar.Go
import CodeIndex.Grammar.Json
import CodeIndex.Grammar.Markdown
import CodeIndex.Grammar.Python
import CodeIndex.Grammar.Rust
import CodeIndex.Grammar.Script.Statement
import CodeIndex.Grammar.Shell
import CodeIndex.Grammar.ToTree
import CodeIndex.Grammar.Toml
import CodeIndex.Syntax.Parser

/-!
# The parser that knows grammars

`Grammar.parser` reads a source with the grammar of its language, and supports the languages that
have one.  It polls the cancellation token before it starts and while it makes a tree of the nodes.
What reads the source is a parameter of `Grammar.parserOf`.
-/

namespace CodeIndex.Grammar

/-- Read a source in a language, if the language has a grammar. -/
def nodeOf? (language : Language) (source : List Char) : Option Node :=
  match language with
  | .rust => some (Rust.grammar.parse source)
  | .python => some (Python.grammar.parse source)
  | .javascript => some (Script.javaScript.parse source)
  | .typescript => some (Script.typeScript.parse source)
  | .go => some (Go.grammar.parse source)
  | .bash => some (Shell.grammar.parse source)
  | .toml => some (Toml.grammar.parse source)
  | .json => some (Json.grammar.parse source)
  | .markdown => some (Markdown.grammar.parse source)
  | _ => none

/-- The parser of the languages that have a grammar, given what reads a source. -/
def parserOf (read : Language → List Char → Option Node) : TreeParser where
  supports := Language.hasGrammar
  parse source language token :=
    match token.poll with
    | (true, token) => (.error .cancelled, token)
    | (false, token) =>
      match read language source with
      | none => (.error (.unsupported language), token)
      | some node => node.toTree token

/-- The parser that knows grammars. -/
def parser : TreeParser := parserOf nodeOf?

end CodeIndex.Grammar
