import CodeIndex.Grammar.Combinators
import CodeIndex.Grammar.Machine

/-!
# The grammar of shell scripts

A command ends with its line or with a sign, and its words stand on one line.  A word may be put
together from several pieces, of which each is a node if there is more than one.

## Main definitions

* `word` is a word with its pieces, `command` a command and `statement` a statement.
* `grammar` is the grammar.
-/

namespace CodeIndex.Grammar.Shell

open Pattern

/-- The patterns that occur inside each other. -/
inductive Rule where
  | statement
  | piece
  | word
  | arithmetic
  | arithmeticUnary

/-! ## Words -/

/-- Words that start or end a statement. -/
def reserved : List String := [
  "if", "then", "elif", "else", "fi", "for", "select", "while", "until", "do", "done", "case",
  "esac", "in", "function", "!", "[[", "]]", "\x7b", "\x7d"]

/-- A character that ends a word, unless a backslash stands before it. -/
def isSpecial (c : Char) : Bool := "'\"<>\x7b\x7d[]()\x60$|&;\\ \t\r\n".contains c

/-- The plain characters of a word. -/
def plain : Scan :=
  let escaped : Scan := .seq [.text "\\", .one fun c => c != '\n']
  .seq [
    .alt [.one fun c => !isSpecial c && c != '#', escaped],
    .many (.alt [.run1 fun c => !isSpecial c, escaped])]

/-- A number. -/
def numberScan : Scan :=
  .notBefore (.seq [.opt (.text "-"), .opt (.text "0x"), .run1 Char.isDigit])
    (.alt [.one fun c => !isSpecial c])

/-- The name of a variable. -/
def nameScan : Scan := .seq [
  .one fun c => c.isAlpha || c == '_', .run fun c => c.isAlphanum || c == '_']

/-- The name of a variable as a node. -/
def variableName : Pattern Rule := leaf "variable_name" nameScan

/-- Where the value of a variable is put in. -/
def simpleExpansion : Pattern Rule :=
  nodeOf "simple_expansion" [
    .token none false (.text "$"),
    .alt [
      attachedLeaf "variable_name" nameScan,
      attachedLeaf "special_variable_name" (.one fun c => "*@?!#-$0_".contains c),
      attachedLeaf "variable_name" (.one Char.isDigit)]]

/-- Where the value of a variable is put in with changes. -/
def expansion : Pattern Rule :=
  nodeOf "expansion" [
    .token none false (.text "$\x7b"),
    opt (attached (.one fun c => "#!".contains c)),
    .alt [
      attachedLeaf "variable_name" nameScan,
      attachedLeaf "special_variable_name" (.one fun c => "*@?!#-$0_".contains c),
      attachedLeaf "variable_name" (.run1 Char.isDigit)],
    opt (.seq [
      attached (.run1 fun c => ":-=+?#%/^,@".contains c),
      .many (.alt [
        .rule .piece,
        attachedLeaf "word" (.run1 fun c => c != '\x7d' && c != '$' && c != '"' && c != '\''
          && c != '\n')])]),
    attached (.text "\x7d")]

/-- The operators of calculations. -/
def operators : Operators := .ofString
  "+ - * / % ** ++ -- << >> < > <= >= == != & | ^ ~ ! && || = += -= *= /= %= <<= >>= &= |= ^= ? : ,"

/-- An operand of a calculation with the signs before and after it. -/
def arithmeticUnary : Pattern Rule := .alt [
  nodeOf "unary_expression" [operators.sign "++ -- + - ~ !", .rule .arithmeticUnary],
  nodeOf "parenthesized_expression" ["(", .rule .arithmetic, ")"],
  .seq [
    .alt [
      leaf "number" (.seq [.opt (.text "0x"), .run1 fun c => c.isAlphanum && !c.isAlpha]),
      variableName, expansion, simpleExpansion],
    opt (aroundOf "postfix_expression" [operators.sign "++ --"])]]

/-- A calculation. -/
def arithmetic : Pattern Rule :=
  let binary := operators.leftLevels "binary_expression" (.rule .arithmeticUnary) [
    "**", "* / %", "+ -", "<< >>", "< > <= >=", "== !=", "&", "^", "|", "&&", "||",
    "= += -= *= /= %= <<= >>= &= |= ^="]
  .seq [binary, opt (aroundOf "ternary_expression" [
    operators.sign "?", .rule .arithmetic, operators.sign ":", .rule .arithmetic])]

/-- Where the output of statements is put in. -/
def substitution : Pattern Rule :=
  let inner := .many (.seq [.rule .statement, opt (.alt [";", "&"])])
  .alt [
    nodeOf "arithmetic_expansion" [
      .token none false (.text "$(("), sepBy1 "," (.rule .arithmetic), "))"],
    nodeOf "command_substitution" [.token none false (.text "$("), inner, ")"],
    nodeOf "command_substitution" [
      .token none false (.text "\x60"), inner, .token none false (.text "\x60")]]

/-- Text between quotes in which values are put in. -/
def string : Pattern Rule :=
  nodeOf "string" [
    .token none false (.text "\""),
    .many (.alt [
      attachedLeaf "string_content" (.many1 (.alt [
        .run1 fun c => c != '"' && c != '$' && c != '\x60' && c != '\\',
        .seq [.text "\\", .one fun _ => true],
        .notBefore (.text "$") (.alt [.one fun c => "\x7b(*@?!#-$_".contains c,
          .one Char.isAlphanum])])),
      expansion, substitution, simpleExpansion]),
    attached (.text "\"")]

/-- A piece of a word. -/
def piece : Pattern Rule := .alt [
  string,
  leaf "raw_string" (.seq [.text "'", .run (· != '\''), .text "'"]),
  leaf "ansi_c_string" (.seq [.text "$'", .run (· != '\''), .text "'"]),
  expansion,
  substitution,
  simpleExpansion,
  leaf "number" numberScan,
  leaf "word" plain]

/-- A word. -/
def word : Pattern Rule :=
  let next : Pattern Rule := .seq [
    .ahead (attached (.one fun c => !" \t\r\n;&|<>()".contains c)), .rule .piece]
  .seq [.rule .piece, opt (aroundOf "concatenation" [many1 next])]

/-- A word that does not start or end a statement. -/
def freeWord : Pattern Rule :=
  .seq [.absent (.token none false (.alt (reserved.map fun text =>
    .notBefore (.text text) (.one fun c => !isSpecial c)))), .rule .word]

/-! ## Commands -/

/-- A value that is given to a variable. -/
def assignment : Pattern Rule :=
  nodeOf "variable_assignment" [
    .alt [
      .seq [
        .ahead (.token none false (.seq [nameScan, .text "["])),
        named (nodeOf "subscript" [variableName, "[", .rule .word, "]"])],
      named variableName],
    attached (.alt [.text "=", .text "+="]),
    .alt [
      nodeOf "array" [attached (.text "("), .many (.rule .word), ")"],
      .seq [.ahead (attached (.one fun c => !" \t\r\n;&|<>)".contains c)), .rule .word],
      .seq []]]

/-- Where input comes from and output goes to. -/
def redirect : Pattern Rule :=
  nodeOf "file_redirect" [
    .token none false (.seq [
      .run Char.isDigit,
      .alt [.text "&>>", .text "&>", .text ">>", .text ">&", .text "<&", .text ">|", .text ">",
        .notBefore (.text "<") (.text "<")]]),
    .rule .word]

/-- The words of a command. -/
def command : Pattern Rule :=
  nodeOf "command" [
    .many (.seq [assignment, sameLine]),
    .absent assignment,
    named (.node "command_name" freeWord),
    .many (.seq [sameLine, .absent (.token none false (.seq [.run Char.isDigit,
      .one fun c => c == '<' || c == '>'])), .rule .word])]

/-- A test of values. -/
def test : Pattern Rule :=
  let operand : Pattern Rule := .seq [.absent (.alt ["]]", "]"]), .rule .word]
  let operator : Pattern Rule := .alt [
    leaf "test_operator" (.seq [.text "-", .run1 Char.isAlpha]),
    .token none false (.alt [
      .text "==", .text "=~", .text "!=", .text "=", .text "<", .text ">"])]
  let plain : Pattern Rule := .alt [
    nodeOf "unary_expression" [
      leaf "test_operator" (.notBefore (.seq [.text "-", .one Char.isAlpha])
        (.one Scan.isNamePart)),
      operand],
    .seq [operand, opt (aroundOf "binary_expression" [operator, operand])]]
  let one : Pattern Rule := .alt [nodeOf "unary_expression" ["!", plain], plain]
  let all := Operators.leftLevel "binary_expression" (.alt ["&&", "||"]) one
  nodeOf "test_command" [.alt [
    .seq ["[[", opt all, "]]"],
    .seq ["[", opt all, "]"]]]

/-! ## Statements -/

/-- The end of a statement. -/
def terminator : Pattern Rule :=
  .alt [.seq [.absent ";;", ";"], .seq [.absent "&&", "&"], otherLine, .ahead (.alt [")", ";;"])]

/-- Statements, each with its end. -/
def statements : Pattern Rule := .many (.seq [.rule .statement, terminator])

/-- The statements of a loop. -/
def doGroup : Pattern Rule := nodeOf "do_group" ["do", statements, "done"]

/-- Statements in braces. -/
def compound : Pattern Rule :=
  nodeOf "compound_statement" [braces [statements]]

/-- Statements that run by themselves. -/
def subshell : Pattern Rule :=
  nodeOf "subshell" ["(", .many (.seq [.rule .statement, opt terminator]), ")"]

/-- A word that a value is compared with, in which some characters stand for any text. -/
def globPattern : Pattern Rule :=
  let wild (c : Char) : Bool := c == '*' || c == '?'
  .alt [
    leaf "extglob_pattern" (.seq [
      .run fun c => !isSpecial c && !wild c, .one wild, .run fun c => !isSpecial c]),
    .rule .word]

/-- A statement that consists of clauses. -/
def clauses : Pattern Rule := .alt [
  nodeOf "if_statement" [
    "if", statements, "then", statements,
    .many (nodeOf "elif_clause" ["elif", statements, "then", statements]),
    opt (nodeOf "else_clause" ["else", statements]),
    "fi"],
  nodeOf "while_statement" [.alt ["while", "until"], statements, doGroup],
  nodeOf "for_statement" [
    .alt ["for", "select"], variableName,
    opt (.seq ["in", .many (.seq [sameLine, .rule .word])]), terminator, doGroup],
  nodeOf "case_statement" [
    "case", .rule .word, "in",
    .many (nodeOf "case_item" [
      .absent "esac", opt "(", sepBy1 "|" globPattern, ")", statements,
      opt (.alt [";;&", ";;", ";&"])]),
    "esac"]]

/-- A function. -/
def function : Pattern Rule :=
  let name : Pattern Rule := named (leaf "word" plain)
  nodeOf "function_definition" [
    .alt [
      .seq ["function", name, opt (.seq ["(", ")"])],
      .seq [name, "(", ")"]],
    .alt [compound, subshell, test, clauses]]

/-- Words that declare variables. -/
def declarationCommand : Pattern Rule :=
  nodeOf "declaration_command" [
    .alt ["declare", "typeset", "export", "readonly", "local"],
    .many (.seq [sameLine, .alt [
      assignment,
      .seq [leaf "variable_name" (.notBefore nameScan (.one fun c => !isSpecial c))],
      .rule .word]])]

/-- A statement without signs between commands. -/
def simple : Pattern Rule :=
  let assignments : Pattern Rule :=
    .seq [assignment, opt (aroundOf "variable_assignments" [many1 (.seq [sameLine, assignment])])]
  .alt [
    function,
    clauses,
    compound,
    subshell,
    test,
    declarationCommand,
    nodeOf "negated_command" ["!", .alt [test, subshell, command, assignments]],
    command,
    assignments]

/-- A statement.  What is redirected is all that stands before the redirection. -/
def statement : Pattern Rule :=
  let piped : Pattern Rule := .seq [sameLine, .absent "||", aroundOf "pipeline" [
    many1 (.seq [sameLine, .absent "||", .alt ["|&", "|"], simple])]]
  let pipeline := .seq [simple, opt piped]
  let listed : Pattern Rule := .seq [sameLine, aroundOf "list" [.alt ["&&", "||"], pipeline]]
  let redirected : Pattern Rule := .seq [sameLine, aroundOf "redirected_statement" [
    many1 (.seq [sameLine, redirect])]]
  followed pipeline [listed, piped, redirected]

/-- The grammar of shell scripts. -/
def grammar : Grammar Rule where
  root := "program"
  item := .seq [.rule .statement, opt terminator]
  rules
    | .statement => statement
    | .piece => piece
    | .word => word
    | .arithmetic => arithmetic
    | .arithmeticUnary => arithmeticUnary
  extras := {
    blank := .run1 fun c => c == ' ' || ('\t' ≤ c && c ≤ '\r')
    joint := .seq [.text "\\", .alt [.text "\n", .text "\r\n"]]
    comments := [{ kind := "comment", scan := .seq [.text "#", .restOfLine] }] }

end CodeIndex.Grammar.Shell
