import CodeIndex.Grammar.Combinators
import CodeIndex.Text.WordCharacter

/-!
# The tokens of scripts

Words, signs, numbers, strings, regular expressions and comments as JavaScript and TypeScript write
them.  A semicolon may be left out at the end of a line, before a closing brace and at the end.

## Main definitions

* `Rule` names the patterns that occur inside each other.
* `identifier`, `propertyIdentifier`, `string`, `template` and `regex` are tokens that are nodes.
* `semicolon` ends a statement.
-/

namespace CodeIndex.Grammar.Script

open Pattern

/-- The patterns that occur inside each other. -/
inductive Rule where
  | statement
  | declaration
  | expression
  | unary
  | binding
  | typ
  | primaryType
  | parameter

/-! ## Words and signs -/

/-- Words that are no names. -/
def reserved : List String := [
  "await", "break", "case", "catch", "class", "const", "continue", "debugger", "default", "delete",
  "do", "else", "enum", "export", "extends", "false", "finally", "for", "function", "if", "import",
  "in", "instanceof", "new", "null", "return", "super", "switch", "this", "throw", "true", "try",
  "typeof", "undefined", "var", "void", "while", "with", "yield"]

/-- A character that a name can hold. -/
def isNamePart (c : Char) : Bool :=
  c == '$' || Scan.isNamePart c || (0x7F < c.toNat && !Text.isBlank c && c != '\uFEFF')

/-- A character that a name starts with. -/
def isNameStart (c : Char) : Bool := isNamePart c && !c.isDigit

/-- A name as a node of some kind, which may be a reserved word. -/
def anyName (kind : String) : Pattern Rule := leaf kind (.name isNameStart isNamePart [])

/-- A name as a node of some kind. -/
def nameOf (kind : String) : Pattern Rule := leaf kind (.name isNameStart isNamePart reserved)

/-- The name of a value. -/
def identifier : Pattern Rule := nameOf "identifier"

/-- The name of a type. -/
def typeIdentifier : Pattern Rule := nameOf "type_identifier"

/-- The name of a property, which may be a reserved word. -/
def propertyIdentifier : Pattern Rule := .alt [
  anyName "property_identifier",
  leaf "private_property_identifier" (.seq [.text "#", .name isNameStart isNamePart []])]

/-- The signs. -/
def operators : Operators := .ofString (
  "+ - * / % ** ++ -- << >> >>> & | ^ ~ ! && || ?? = == === != !== < > <= >= += -= *= /= %= " ++
  "**= <<= >>= >>>= &= |= ^= &&= ||= ??= => ? ?. : . ...")

/-- One of some signs. -/
def sign (wanted : String) : Pattern Rule := operators.sign wanted

/-- The end of a statement. -/
def semicolon : Pattern Rule := .alt [";", otherLine, .ahead "\x7d"]

/-- A word before a name, unless the word is the name itself. -/
def modifierWord (text : String) : Pattern Rule :=
  .seq [text, .absent (.token none false (.one fun c => "(=;\x7d,?!:<".contains c))]

/-! ## Literals -/

/-- Digits with blanks between them. -/
def digits : Scan := .seq [.one Char.isDigit, .run fun c => c.isDigit || c == '_']

/-- A number. -/
def numberScan : Scan :=
  let power : Scan := .opt (.seq [
    .one fun c => c == 'e' || c == 'E', .opt (.one fun c => c == '+' || c == '-'), digits])
  .seq [
    .alt [
      .seq [.text "0", .one fun c => "xXoObB".contains c, .run1 fun c => c.isAlphanum || c == '_'],
      .seq [digits, .opt (.seq [.text ".", .opt digits]), power],
      .seq [.text ".", digits, power]],
    .opt (.text "n")]

/-- What stands for a character that cannot stand for itself. -/
def escape : Scan := .seq [.text "\\", .alt [
  .seq [.text "u\x7b", .run1 Char.isAlphanum, .text "\x7d"],
  .seq [.text "u", .one Char.isAlphanum, .one Char.isAlphanum, .one Char.isAlphanum,
    .one Char.isAlphanum],
  .seq [.text "x", .one Char.isAlphanum, .one Char.isAlphanum],
  .text "\r\n",
  .one fun _ => true]]

/-- A string between quotes. -/
def stringWith (quote : Char) : Pattern Rule :=
  let mark := quote.toString
  nodeOf "string" [
    .token none false (.text mark),
    .many (.alt [
      attachedLeaf "string_fragment" (.run1 fun c => c != quote && c != '\\' && c != '\n'),
      attachedLeaf "escape_sequence" escape]),
    attached (.text mark)]

/-- A string. -/
def string : Pattern Rule := .alt [stringWith '"', stringWith '\'']

/-- A string with expressions in it. -/
def templateOf (kind substitution : String) (inner : Pattern Rule) : Pattern Rule :=
  nodeOf kind [
    .token none false (.text "\x60"),
    .many (.alt [
      attachedLeaf "string_fragment" (.many1 (.alt [
        .run1 fun c => c != '\x60' && c != '\\' && c != '$',
        .notBefore (.text "$") (.text "\x7b")])),
      attachedLeaf "escape_sequence" escape,
      nodeOf substitution [attached (.text "$\x7b"), inner, "\x7d"]]),
    attached (.text "\x60")]

/-- A regular expression. -/
def regex : Pattern Rule :=
  let escaped : Scan := .seq [.text "\\", .one fun _ => true]
  let group : Scan := .seq [
    .text "[", .many (.alt [escaped, .run1 fun c => c != ']' && c != '\\' && c != '\n']), .text "]"]
  let plain : Scan := .run1 fun c => c != '/' && c != '\\' && c != '[' && c != '\n'
  nodeOf "regex" [
    .token none false (.notBefore (.text "/") (.one fun c => c == '*' || c == '/')),
    attachedLeaf "regex_pattern" (.many1 (.alt [escaped, group, plain])),
    attached (.text "/"),
    opt (attachedLeaf "regex_flags" (.run1 Char.isAlpha))]

/-! ## Comments -/

/-- The forms of comments, of which the first names a program at the top of a file. -/
def comments : List CommentForm := [
  { kind := "hash_bang_line", scan := .seq [.text "#!", .restOfLine] },
  { kind := "comment", scan := .seq [.text "//", .restOfLine] },
  { kind := "comment", scan := .seq [.text "/*", .before (.text "*/"), .text "*/"] }]

/-- What stands between tokens. -/
def extras : Extras where
  blank := .run1 fun c => Text.isBlank c || c == '\uFEFF' || c == '\u2060' || c == '\u200B'
  comments := comments

end CodeIndex.Grammar.Script
