import CodeIndex.Grammar.Combinators
import CodeIndex.Grammar.Machine

/-!
# The grammar of JSON

A source is any number of values.  A string consists of runs of plain characters and of escape
sequences, each of which is a node.
-/

namespace CodeIndex.Grammar.Json

open Pattern

/-- The pattern with a name. -/
inductive Rule where
  | value

/-- A sign before digits. -/
def sign : Scan := .opt (.one fun c => c == '-' || c == '+')

/-- The power of ten that a number ends with. -/
def power : Scan := .seq [.one fun c => c == 'e' || c == 'E', sign, .run1 Char.isDigit]

/-- A number: no zero stands before other digits. -/
def number : Scan := .seq [
  .opt (.text "-"),
  .alt [.text "0", .run1 Char.isDigit],
  .opt (.seq [.text ".", .run Char.isDigit]),
  .opt power]

/-- A run of plain characters of a string. -/
def plain : Scan := .run1 fun c => c != '\\' && c != '"' && c != '\n'

/-- A backslash and the character that it gives a meaning; the digits of a code are plain. -/
def escape : Scan := .seq [.text "\\", .one fun c => "\"\\/bfnrtu".contains c]

/-- A string. -/
def string : Pattern Rule :=
  nodeOf "string" [
    "\"",
    .many (.alt [attachedLeaf "string_content" plain, attachedLeaf "escape_sequence" escape]),
    attachedWord "\""]

/-- A value of any kind. -/
def value : Pattern Rule :=
  .alt [
    nodeOf "object" [braces [opt (sepBy1 "," (nodeOf "pair" [string, ":", .rule .value]))]],
    nodeOf "array" [brackets [opt (sepBy1 "," (.rule .value))]],
    string,
    leaf "number" number,
    wordLeaf "true" "true",
    wordLeaf "false" "false",
    wordLeaf "null" "null"]

/-- A comment over part of a line or over several lines. -/
def comments : List CommentForm := [
  { kind := "comment", scan := .seq [.text "//", .restOfLine] },
  { kind := "comment", scan := .seq [.text "/*", .before (.text "*/"), .text "*/"] }]

/-- The grammar of JSON. -/
def grammar : Grammar Rule where
  root := "document"
  item := .rule .value
  rules | .value => value
  extras := { blank := .run1 fun c => c == ' ' || ('\t' ≤ c && c ≤ '\r'), comments }

end CodeIndex.Grammar.Json
