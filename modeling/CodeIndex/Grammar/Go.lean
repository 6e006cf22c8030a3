import CodeIndex.Grammar.Combinators
import CodeIndex.Grammar.Machine
import CodeIndex.Text.WordCharacter

/-!
# The grammar of Go

A statement ends with its line or with a semicolon, so a sign that goes on with an expression has to
stand on the line where the expression stands.  An expression in front of a block holds no composite
literal outside brackets, because its brace would be taken for that of the block;
`Rule.expression` and `Rule.unary` say whether composite literals may occur.

## Main definitions

* `typ`, `expressionWith` and `statement` are the three kinds of patterns.
* `grammar` is the grammar.
-/

namespace CodeIndex.Grammar.Go

open Pattern

/-- The patterns that occur inside each other. -/
inductive Rule where
  | statement
  | statements
  | block
  | ifStatement
  | expression (composite : Bool)
  | unary (composite : Bool)
  | simpleStatement (composite : Bool)
  | literalValue
  | typ
  | parameters
  | result

/-! ## Tokens -/

/-- Words that are no names. -/
def reserved : List String := [
  "break", "case", "chan", "const", "continue", "default", "defer", "else", "fallthrough", "for",
  "func", "go", "goto", "if", "import", "interface", "map", "package", "range", "return", "select",
  "struct", "switch", "type", "var"]

/-- A character that a name starts with. -/
def isNameStart (c : Char) : Bool := Scan.isNamePart c && !c.isDigit

/-- A name as a node of some kind. -/
def nameOf (kind : String) : Pattern Rule :=
  leaf kind (.name isNameStart Scan.isNamePart reserved)

/-- The name of a value. -/
def identifier : Pattern Rule := nameOf "identifier"

/-- The name of a type. -/
def typeIdentifier : Pattern Rule := nameOf "type_identifier"

/-- The name of a field or method. -/
def fieldIdentifier : Pattern Rule := nameOf "field_identifier"

/-- The name of a package. -/
def packageIdentifier : Pattern Rule := nameOf "package_identifier"

/-- The signs. -/
def operators : Operators := .ofString (
  "+ - * / % & | ^ << >> &^ += -= *= /= %= &= |= ^= <<= >>= &^= " ++
  "&& || <- ++ -- == < > = ! ~ != <= >= := : . ...")

/-- One of some signs. -/
def sign (wanted : String) : Pattern Rule := operators.sign wanted

/-- The signs that assign. -/
def assignSigns : String := "= += -= *= /= %= &= |= ^= <<= >>= &^="

/-- The end of a line, with the comment before it. -/
def lineEnd : Pattern Rule := .seq [
  .remarks fun _ remark => !remark.isFresh,
  attached (.seq [.run fun c => c == ' ' || c == '\t' || c == '\r', .text "\n"])]

/-- The end of a statement. -/
def terminator : Pattern Rule := .alt [";", otherLine]

/-- Parts of which each ends with its line, the last one perhaps with a bracket. -/
def lines (part : Pattern Rule) : Pattern Rule :=
  .many (.seq [part, .alt [terminator, .ahead (.alt [")", "\x7d"])]])

/-- Digits with blanks between them. -/
def digits : Scan := .seq [.one Char.isDigit, .run fun c => c.isDigit || c == '_']

/-- The power of ten at the end of a number. -/
def power : Scan := .seq [
  .one fun c => c == 'e' || c == 'E', .opt (.one fun c => c == '+' || c == '-'), digits]

/-- A floating-point number. -/
def floatScan : Scan := .alt [
  .seq [digits, .text ".", .opt digits, .opt power],
  .seq [digits, power],
  .seq [.text ".", digits, .opt power]]

/-- An integer, in any base. -/
def integerScan : Scan := .alt [
  .seq [.text "0", .one fun c => "xXoObB".contains c, .run1 fun c => c.isAlphanum || c == '_'],
  digits]

/-- What stands for a character that cannot stand for itself. -/
def escape : Scan := .seq [.text "\\", .alt [
  .seq [.text "x", .one Char.isAlphanum, .one Char.isAlphanum],
  .seq [.text "u", .one Char.isAlphanum, .one Char.isAlphanum, .one Char.isAlphanum,
    .one Char.isAlphanum],
  .seq [.one Char.isDigit, .one Char.isDigit, .one Char.isDigit],
  .one fun _ => true]]

/-- A string. -/
def string : Pattern Rule := .alt [
  nodeOf "raw_string_literal" [
    .token none false (.text "\x60"),
    attachedLeaf "raw_string_literal_content" (.run (· != '\x60')),
    attached (.text "\x60")],
  nodeOf "interpreted_string_literal" [
    "\"",
    .many (.alt [
      attachedLeaf "interpreted_string_literal_content"
        (.run1 fun c => c != '"' && c != '\\' && c != '\n'),
      attachedLeaf "escape_sequence" escape]),
    attached (.text "\"")]]

/-- A literal on one line. -/
def literal : Pattern Rule := .alt [
  string,
  leaf "rune_literal" (.seq [
    .text "'", .alt [escape, .one fun c => c != '\'' && c != '\\'], .text "'"]),
  leaf "imaginary_literal" (.seq [.alt [floatScan, integerScan], .text "i"]),
  leaf "float_literal" floatScan,
  leaf "int_literal" integerScan]

/-! ## Types -/

/-- Some types of which one is meant. -/
def typeElement (kind : String) : Pattern Rule :=
  .node kind (sepBy1 (sign "|") (.rule .typ))

/-- The types that are put in for parameters. -/
def typeArguments : Pattern Rule :=
  nodeOf "type_arguments" [brackets [commaList1 (typeElement "type_elem")]]

/-- The parameters that stand for types. -/
def typeParameters : Pattern Rule :=
  nodeOf "type_parameter_list" [brackets [commaList1 (nodeOf "type_parameter_declaration" [
    sepBy1 "," (named identifier), typeElement "type_constraint"])]]

/-- The fields of a record. -/
def structType : Pattern Rule :=
  let embedded : Pattern Rule := .alt [
    nodeOf "qualified_type" [packageIdentifier, sign ".", named typeIdentifier], typeIdentifier]
  nodeOf "struct_type" ["struct", nodeOf "field_declaration_list" [braces [lines (
    nodeOf "field_declaration" [
      .alt [
        .seq [sepBy1 "," (named fieldIdentifier), sameLine, .absent (.alt [string, sign "."]),
          .rule .typ],
        .seq [opt "*", embedded, opt (aroundOf "generic_type" [typeArguments])]],
      opt (.seq [sameLine, string])])]]]

/-- What a value has to offer. -/
def interfaceType : Pattern Rule :=
  nodeOf "interface_type" ["interface", braces [lines (.alt [
    nodeOf "method_elem" [named fieldIdentifier, .rule .parameters, opt (.rule .result)],
    typeElement "type_elem"])]]

/-- A type with a name. -/
def namedType : Pattern Rule := .seq [
  .alt [
    nodeOf "qualified_type" [packageIdentifier, sign ".", named typeIdentifier],
    typeIdentifier],
  opt (.seq [sameLine, aroundOf "generic_type" [typeArguments]])]

/-- A type that a literal can be of. -/
def literalType : Pattern Rule := .alt [
  nodeOf "map_type" ["map", brackets [.rule .typ], .rule .typ],
  nodeOf "slice_type" ["[", "]", .rule .typ],
  nodeOf "implicit_length_array_type" ["[", "...", "]", .rule .typ],
  nodeOf "array_type" [brackets [.rule (.expression true)], .rule .typ],
  structType]

/-- A type. -/
def typ : Pattern Rule := .alt [
  nodeOf "pointer_type" ["*", .rule .typ],
  nodeOf "parenthesized_type" [parens [.rule .typ]],
  nodeOf "negated_type" ["~", .rule .typ],
  nodeOf "function_type" ["func", .rule .parameters, opt (.rule .result)],
  nodeOf "channel_type" [
    .alt [.seq ["chan", opt (sign "<-")], .seq [sign "<-", "chan"]], .rule .typ],
  literalType,
  interfaceType,
  namedType]

/-- The parameters of a function. -/
def parameters : Pattern Rule :=
  nodeOf "parameter_list" [parens [commaList (.alt [
    nodeOf "variadic_parameter_declaration" [opt (named identifier), "...", .rule .typ],
    nodeOf "parameter_declaration" [sepBy1 "," (named identifier), .rule .typ],
    nodeOf "parameter_declaration" [.rule .typ]])]]

/-- What a function gives. -/
def result : Pattern Rule := .seq [sameLine, .alt [.rule .parameters, .rule .typ]]

/-! ## Expressions -/

/-- The parts of a composite literal. -/
def literalValue : Pattern Rule :=
  let element : Pattern Rule :=
    .node "literal_element" (.alt [.rule .literalValue, .rule (.expression true)])
  nodeOf "literal_value" [braces [commaList (.seq [
    element, opt (aroundOf "keyed_element" [sign ":", element])])]]

/-- What a function is called with. -/
def arguments : Pattern Rule :=
  nodeOf "argument_list" [parens [commaList (.seq [
    .alt [.rule (.expression true), .rule .typ], opt "..."])]]

/-- What a function that makes values of a type is called with. -/
def typeFirst : Pattern Rule :=
  nodeOf "argument_list" [parens [
    .rule .typ, .many (.seq [",", .rule (.expression true)]), opt ","]]

/-- The start of an expression, to which calls and fields may be added. -/
def operand (composite : Bool) : Pattern Rule :=
  let inner : Pattern Rule := .rule (.expression true)
  .alt [
    literal,
    nodeOf "call_expression" [
      leaf "identifier" (.alt [.word "make", .word "new"]), typeFirst],
    nodeOf "func_literal" ["func", .rule .parameters, opt (.rule .result), .rule .block],
    nodeOf "composite_literal" [literalType, .rule .literalValue],
    if composite then
      nodeOf "composite_literal" [namedType, sameLine, .rule .literalValue] else .alt [],
    nodeOf "type_conversion_expression" [literalType, "(", inner, opt ",", ")"],
    nodeOf "parenthesized_expression" [parens [.alt [inner, .rule .typ]]],
    wordLeaf "nil" "nil", wordLeaf "true" "true", wordLeaf "false" "false",
    wordLeaf "iota" "iota",
    identifier]

/-- An operand, with the parts that select from it and the signs before it. -/
def unaryWith (composite : Bool) : Pattern Rule :=
  let inner : Pattern Rule := .rule (.expression true)
  let limit : Pattern Rule := opt inner
  .alt [
    nodeOf "unary_expression" [sign "+ - ! ^ * & <-", .rule (.unary composite)],
    followed (operand composite) [
      .seq [sameLine, .alt [
        aroundOf "selector_expression" [sign ".", fieldIdentifier],
        aroundOf "type_assertion_expression" [sign ".", parens [.rule .typ]],
        aroundOf "call_expression" [arguments],
        aroundOf "call_expression" [typeArguments, arguments],
        aroundOf "index_expression" [brackets [inner]],
        aroundOf "slice_expression" [brackets [
          limit, sign ":", limit, opt (.seq [sign ":", limit])]]]]]]

/-- The signs between operands, those that bind most tightly first. -/
def binaryLevels : List String :=
  ["* / % << >> & &^", "+ - | ^", "== != < <= > >=", "&&", "||"]

/-- An expression. -/
def expressionWith (composite : Bool) : Pattern Rule :=
  binaryLevels.foldl
    (fun operand wanted => Operators.leftLevel "binary_expression"
      (.seq [sameLine, sign wanted]) operand)
    (.rule (.unary composite))

/-- Some expressions as one node. -/
def expressionList (composite : Bool) : Pattern Rule :=
  .node "expression_list" (sepBy1 "," (.rule (.expression composite)))

/-! ## Statements -/

/-- A statement that fits into a line. -/
def simpleWith (composite : Bool) : Pattern Rule :=
  let self : Pattern Rule := .rule (.expression composite)
  let assigns : Pattern Rule := .seq [sameLine, sign (assignSigns ++ " :=")]
  .seq [
    self,
    .alt [
      .seq [
        aroundOf "expression_list" [.many (.seq [",", self]), .ahead assigns],
        .alt [
          aroundOf "short_var_declaration" [sign ":=", expressionList composite],
          aroundOf "assignment_statement" [sign assignSigns, expressionList composite]]],
      .seq [sameLine, aroundOf "inc_statement" [sign "++"]],
      .seq [sameLine, aroundOf "dec_statement" [sign "--"]],
      .seq [sameLine, aroundOf "send_statement" [sign "<-", self]],
      aroundOf "expression_statement" []]]

/-- Statements in braces. -/
def block : Pattern Rule := nodeOf "block" [braces [opt (.rule .statements)]]

/-- Statements, each of which ends with its line. -/
def statements : Pattern Rule :=
  nodeOf "statement_list" [
    .rule .statement,
    .many (.seq [terminator, .rule .statement]),
    opt (.alt [";", lineEnd])]

/-- One declaration, or several of them in parentheses. -/
def oneOrMore (part : Pattern Rule) : Pattern Rule := .alt [parens [lines part], part]

/-- The values that variables start with. -/
def values : Pattern Rule := .seq [sameLine, sign "=", expressionList true]

/-- A declaration of constants, types or variables. -/
def declaration : Pattern Rule :=
  let names : Pattern Rule := sepBy1 "," (named identifier)
  let varSpec := nodeOf "var_spec" [
    names, .alt [values, .seq [sameLine, .rule .typ, opt values]]]
  .alt [
    nodeOf "const_declaration" ["const", oneOrMore (nodeOf "const_spec" [
      names, opt (.alt [values, .seq [sameLine, .rule .typ, values]])])],
    nodeOf "type_declaration" ["type", oneOrMore (.alt [
      nodeOf "type_alias" [named typeIdentifier, opt typeParameters, sign "=", .rule .typ],
      nodeOf "type_spec" [named typeIdentifier, opt typeParameters, .rule .typ]])],
    nodeOf "var_declaration" [
      "var", .alt [nodeOf "var_spec_list" [parens [lines varSpec]], varSpec]]]

/-- What stands before a condition or a value. -/
def setup : Pattern Rule := opt (.seq [.rule (.simpleStatement false), ";"])

/-- What is done under a condition. -/
def ifStatement : Pattern Rule :=
  nodeOf "if_statement" [
    "if", setup, .rule (.expression false), .rule .block,
    opt (.seq ["else", .alt [.rule .block, .rule .ifStatement]])]

/-- A loop. -/
def forStatement : Pattern Rule :=
  let simple : Pattern Rule := opt (.rule (.simpleStatement false))
  nodeOf "for_statement" [
    "for",
    opt (.alt [
      nodeOf "range_clause" [
        opt (.seq [expressionList false, sign ":= ="]), "range", .rule (.expression false)],
      nodeOf "for_clause" [
        simple, ";", opt (.rule (.expression false)), ";", simple],
      .rule (.expression false)]),
    .rule .block]

/-- One of several cases. -/
def caseOf (kind : String) (parts : List (Pattern Rule)) : Pattern Rule :=
  nodeOf kind [.seq parts, sign ":", opt (.rule .statements)]

/-- A choice among cases. -/
def switchStatement : Pattern Rule :=
  let otherwise := caseOf "default_case" ["default"]
  .alt [
    nodeOf "type_switch_statement" [
      "switch", setup, opt (.seq [expressionList false, sign ":="]),
      .rule (.expression false), sign ".", "(", "type", ")",
      braces [.many (.alt [
        caseOf "type_case" ["case", sepBy1 "," (.rule .typ)], otherwise])]],
    nodeOf "expression_switch_statement" [
      "switch", setup, opt (.rule (.expression false)),
      braces [.many (.alt [
        caseOf "expression_case" ["case", expressionList true], otherwise])]],
    nodeOf "select_statement" [
      "select",
      braces [.many (.alt [
        caseOf "communication_case" ["case", .alt [
          nodeOf "send_statement" [.rule (.expression true), sign "<-", .rule (.expression true)],
          nodeOf "receive_statement" [
            opt (.seq [expressionList true, sign "= :="]), .rule (.expression true)]]],
        otherwise])]]]

/-- A statement that goes on at a label. -/
def jump (kind word : String) : Pattern Rule :=
  nodeOf kind [word, opt (.seq [sameLine, nameOf "label_name"])]

/-- A statement. -/
def statement : Pattern Rule := .alt [
  declaration,
  nodeOf "return_statement" [
    "return", opt (.seq [sameLine, .absent (.alt ["\x7d", ";"]), expressionList true])],
  nodeOf "go_statement" ["go", .rule (.expression true)],
  nodeOf "defer_statement" ["defer", .rule (.expression true)],
  .rule .ifStatement,
  forStatement,
  switchStatement,
  jump "break_statement" "break",
  jump "continue_statement" "continue",
  jump "goto_statement" "goto",
  .node "fallthrough_statement" "fallthrough",
  .rule .block,
  nodeOf "labeled_statement" [nameOf "label_name", sign ":", opt (.rule .statement)],
  .rule (.simpleStatement true),
  .node "empty_statement" ";"]

/-- A declaration that no function can hold. -/
def topLevel : Pattern Rule :=
  let spec := nodeOf "import_spec" [
    opt (named (.alt [
      leaf "dot" (.text "."), wordLeaf "blank_identifier" "_", packageIdentifier])),
    string]
  let signature : Pattern Rule := .seq [
    .rule .parameters, opt (.rule .result), opt (.seq [sameLine, .rule .block])]
  .alt [
    nodeOf "package_clause" ["package", packageIdentifier],
    nodeOf "import_declaration" [
      "import", .alt [nodeOf "import_spec_list" [parens [lines spec]], spec]],
    nodeOf "method_declaration" ["func", .rule .parameters, named fieldIdentifier, signature],
    nodeOf "function_declaration" ["func", named identifier, opt typeParameters, signature]]

/-- The forms of comments. -/
def comments : List CommentForm := [
  { kind := "comment", scan := .seq [.text "//", .restOfLine] },
  { kind := "comment", scan := .seq [.text "/*", .before (.text "*/"), .text "*/"] }]

/-- An expression that may hold composite literals. -/
def anyExpression : Pattern Rule := expressionWith true

/-- An expression in front of a block. -/
def headExpression : Pattern Rule := expressionWith false

/-- An operand that may be a composite literal. -/
def anyUnary : Pattern Rule := unaryWith true

/-- An operand in front of a block. -/
def headUnary : Pattern Rule := unaryWith false

/-- A statement that fits into a line and may hold composite literals. -/
def anySimple : Pattern Rule := simpleWith true

/-- A statement in front of a block. -/
def headSimple : Pattern Rule := simpleWith false

/-- The grammar of Go. -/
def grammar : Grammar Rule where
  root := "source_file"
  item := .seq [.alt [topLevel, .rule .statement], terminator]
  rules
    | .statement => statement
    | .statements => statements
    | .block => block
    | .ifStatement => ifStatement
    | .expression true => anyExpression
    | .expression false => headExpression
    | .unary true => anyUnary
    | .unary false => headUnary
    | .simpleStatement true => anySimple
    | .simpleStatement false => headSimple
    | .literalValue => literalValue
    | .typ => typ
    | .parameters => parameters
    | .result => result
  extras := { blank := .run1 Text.isBlank, comments }

end CodeIndex.Grammar.Go
