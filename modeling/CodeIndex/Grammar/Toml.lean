import CodeIndex.Grammar.Combinators
import CodeIndex.Grammar.Machine

/-!
# The grammar of TOML

A source is a sequence of pairs and tables.  Line ends are tokens: a pair goes to the end of its
line, the blanks and the comment before the line end included, and a table holds all lines up to the
next table.
-/

namespace CodeIndex.Grammar.Toml

open Pattern

/-- The patterns that occur inside each other. -/
inductive Rule where
  | value

/-- The end of a line. -/
def newline : Pattern Rule := .token none false (.alt [.text "\n", .text "\r\n"])

/-- The place before the end of a line. -/
def lineEnd : Pattern Rule := .token none false .lineEnd

/-! ## Keys and strings -/

/-- What stands for a character that cannot stand for itself. -/
def escape : Scan := .seq [.text "\\", .alt [
  .seq [.text "u", .one Char.isAlphanum, .one Char.isAlphanum, .one Char.isAlphanum,
    .one Char.isAlphanum],
  .one fun _ => true]]

/-- Text between quotes, in which backslashes have a meaning. -/
def basicText : Pattern Rule :=
  .seq [
    .token none false (.text "\""),
    .many (.alt [
      attached (.run1 fun c => c != '"' && c != '\\' && c != '\n'),
      attachedLeaf "escape_sequence" escape]),
    attached (.text "\"")]

/-- Text between quotes, in which every character stands for itself. -/
def literalText : Pattern Rule :=
  .token none false (.seq [.text "'", .run fun c => c != '\'' && c != '\n', .text "'"])

/-- Text over several lines. -/
def longText : Pattern Rule := .alt [
  .seq [
    .token none false (.text "\"\"\""),
    .many (.seq [.absent (attached (.text "\"\"\"")), .alt [
      attached (.run1 fun c => c != '"' && c != '\\'),
      attachedLeaf "escape_sequence" escape,
      attached (.text "\"")]]),
    attached (.text "\"\"\"")],
  .token none false (.seq [.text "'''", .before (.text "'''"), .text "'''"])]

/-- A key without dots. -/
def simpleKey : Pattern Rule := .alt [
  leaf "bare_key" (.run1 fun c => c.isAlphanum || c == '_' || c == '-'),
  .node "quoted_key" (.alt [basicText, literalText])]

/-- A key. -/
def key : Pattern Rule := followed simpleKey [aroundOf "dotted_key" [".", simpleKey]]

/-! ## Values -/

/-- Digits with blanks between them. -/
def digits : Scan := .seq [.one Char.isDigit, .run fun c => c.isDigit || c == '_']

/-- A sign before a number. -/
def sign : Scan := .opt (.one fun c => c == '+' || c == '-')

/-- Some digits. -/
def fixed (count : Nat) : Scan := .seq (List.replicate count (.one Char.isDigit))

/-- A day. -/
def date : Scan := .seq [fixed 4, .text "-", fixed 2, .text "-", fixed 2]

/-- A time of day. -/
def time : Scan := .seq [
  fixed 2, .text ":", fixed 2, .text ":", fixed 2, .opt (.seq [.text ".", .run1 Char.isDigit])]

/-- A day and a time. -/
def dateTime : Scan := .seq [date, .one fun c => c == 'T' || c == 't' || c == ' ', time]

/-- The distance of a time from that of the zero meridian. -/
def offset : Scan := .alt [
  .one fun c => c == 'Z' || c == 'z',
  .seq [.one fun c => c == '+' || c == '-', fixed 2, .text ":", fixed 2]]

/-- A number that may have a fraction. -/
def floatScan : Scan :=
  let power : Scan := .seq [.one fun c => c == 'e' || c == 'E', sign, digits]
  .alt [
    .seq [sign, digits, .text ".", digits, .opt power],
    .seq [sign, digits, power],
    .seq [sign, .alt [.word "inf", .word "nan"]]]

/-- A whole number. -/
def integerScan : Scan := .alt [
  .seq [.text "0", .one fun c => "xob".contains c, .run1 fun c => c.isAlphanum || c == '_'],
  .seq [sign, digits]]

/-- A pair in a line. -/
def inlinePair : List (Pattern Rule) := [key, "=", .rule .value]

/-- A value. -/
def value : Pattern Rule := .alt [
  .node "string" (.alt [longText, basicText, literalText]),
  leaf "offset_date_time" (.seq [dateTime, offset]),
  leaf "local_date_time" dateTime,
  leaf "local_date" date,
  leaf "local_time" time,
  leaf "float" floatScan,
  leaf "integer" integerScan,
  leaf "boolean" (.alt [.word "true", .word "false"]),
  nodeOf "array" [brackets [
    .many newline,
    .many (.seq [
      .rule .value, .many newline, .alt [.seq [",", .many newline], .ahead "]"]])]],
  nodeOf "inline_table" [braces [opt (sepBy1 "," (nodeOf "pair" inlinePair)), opt ","]]]

/-! ## Tables -/

/-- A pair with a line of its own. -/
def pair : Pattern Rule := nodeOf "pair" (inlinePair.concat lineEnd)

/-- The lines of a table. -/
def lines : Pattern Rule := .many (.alt [pair, newline])

/-- The grammar of TOML. -/
def grammar : Grammar Rule where
  root := "document"
  item := .alt [
    nodeOf "table_array_element" ["[[", key, "]]", lineEnd, lines],
    nodeOf "table" ["[", key, "]", lineEnd, lines],
    pair,
    newline]
  rules | .value => value
  extras := {
    blank := .run1 fun c => c == ' ' || c == '\t'
    comments := [{
      kind := "comment"
      scan := .seq [.text "#", .run fun c => c != '\n' && c != '\r'] }] }

end CodeIndex.Grammar.Toml
