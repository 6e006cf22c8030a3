import CodeIndex.Grammar.Combinators
import CodeIndex.Grammar.Machine
import CodeIndex.Text.WordCharacter

/-!
# The grammar of Python

Line ends and indentation have a meaning: a statement ends with its line unless a bracket is open,
and the statements of a block start at one column, which is greater than that of what they belong
to.  A comment at the end of a block is part of the block if it is indented like it.

## Main definitions

* `expression`, `typ`, `statement` and `suite` are the four kinds of patterns.
* `grammar` is the grammar.
-/

namespace CodeIndex.Grammar.Python

open Pattern

/-- The patterns that occur inside each other. -/
inductive Rule where
  | statement
  | suite
  | expression
  | unary
  | notTest
  | primary
  | disjunction
  | typ
  | target
  | parameter
  | casePattern
  | rightSide

/-! ## Tokens -/

/-- Words that are no names. -/
def reserved : List String := [
  "False", "None", "True", "and", "as", "assert", "async", "await", "break", "class", "continue",
  "def", "del", "elif", "else", "except", "finally", "for", "from", "global", "if", "import", "in",
  "is", "lambda", "nonlocal", "not", "or", "pass", "raise", "return", "try", "while", "with",
  "yield"]

/-- A character that a name starts with. -/
def isNameStart (c : Char) : Bool := Scan.isNamePart c && !c.isDigit

/-- A name. -/
def identifier : Pattern Rule :=
  leaf "identifier" (.name isNameStart Scan.isNamePart reserved)

/-- The signs. -/
def operators : Operators := .ofString (
  "+ - * / % @ // ** | & ^ ~ << >> < > <= >= == != <> += -= *= /= %= @= //= **= |= &= ^= <<= " ++
  ">>= = -> := : . ...")

/-- One of some signs. -/
def sign (wanted : String) : Pattern Rule := operators.sign wanted

/-- Parts between brackets, in which line ends have no meaning. -/
def bracketed («open» : String) (parts : List (Pattern Rule)) (close : String) : Pattern Rule :=
  .seq [«open», .spanning true (.seq [.seq parts, close])]

/-- A pattern once or more with commas, of which there may be one more at the end. -/
def commas (part : Pattern Rule) : Pattern Rule := commaList1 part

/-- Digits with blanks between them. -/
def digits : Scan := .seq [.one Char.isDigit, .run fun c => c.isDigit || c == '_']

/-- The power of ten at the end of a number. -/
def power : Scan := .seq [
  .one fun c => c == 'e' || c == 'E', .opt (.one fun c => c == '+' || c == '-'), digits]

/-- The mark of an imaginary number. -/
def imaginary : Scan := .opt (.one fun c => "jJlL".contains c)

/-- A floating-point number. -/
def floatScan : Scan := .alt [
  .seq [digits, .text ".", .opt digits, .opt power, imaginary],
  .seq [.text ".", digits, .opt power, imaginary],
  .seq [digits, power, imaginary]]

/-- An integer, in any base. -/
def integerScan : Scan := .alt [
  .seq [.text "0", .one fun c => "xXoObB".contains c, .run1 fun c => c.isAlphanum || c == '_'],
  .seq [digits, imaginary]]

/-! ## Strings -/

/-- What stands for a character that cannot stand for itself. -/
def escape : Scan := .seq [.text "\\", .alt [
  .seq [.text "x", .one Char.isAlphanum, .one Char.isAlphanum],
  .seq [.text "u", .one Char.isAlphanum, .one Char.isAlphanum, .one Char.isAlphanum,
    .one Char.isAlphanum],
  .seq [.text "N\x7b", .run1 (· != '\x7d'), .text "\x7d"],
  .seq [.one Char.isDigit, .one Char.isDigit, .one Char.isDigit],
  .text "\r\n",
  .one fun c => "\n'\"abfnrtv\\".contains c]]

/-- How the text of a string is read. -/
structure Reading where
  /-- Whether a backslash stands for itself. -/
  raw : Bool
  /-- Whether braces enclose expressions. -/
  format : Bool

/-- The letters before a string that is read in a way. -/
def Reading.letters (reading : Reading) : Scan :=
  let letter (letters : String) : Scan := .one fun c => letters.contains c
  match reading with
  | ⟨false, false⟩ => .opt (letter "bBuU")
  | ⟨true, false⟩ => .alt [.seq [letter "rR", .opt (letter "bB")], .seq [letter "bB", letter "rR"]]
  | ⟨false, true⟩ => letter "fFtT"
  | ⟨true, true⟩ => .alt [.seq [letter "rR", letter "fFtT"], .seq [letter "fFtT", letter "rR"]]

/-- An expression in a string. -/
def interpolation : Pattern Rule :=
  nodeOf "interpolation" [
    attachedWord "\x7b",
    .spanning true (.seq [
      .rule .expression,
      opt (aroundOf "expression_list" [many1 (.seq [",", .rule .expression])]),
      opt (sign "="),
      opt (attachedLeaf "type_conversion" (.seq [.text "!", .one Char.isAlpha])),
      opt (nodeOf "format_specifier" [
        ":",
        .many (.alt [
          attached (.run1 fun c => !"\x7b\x7d\n\"'".contains c),
          nodeOf "format_expression" [
            attachedWord "\x7b", .rule .expression, "\x7d"]])]),
      "\x7d"])]

/-- The text of a string that ends with some quotes. -/
def stringText (reading : Reading) (quotes : String) : Pattern Rule :=
  let isPlain (c : Char) := c != '\\' && c != '\n' && !quotes.contains c &&
    !(reading.format && (c == '\x7b' || c == '\x7d'))
  let single : Scan := .butNot (.one fun c => c != '\\' &&
      (quotes.length == 3 || c != '\n') && !(reading.format && (c == '\x7b' || c == '\x7d')))
    (.text quotes)
  let escapes : List (Pattern Rule) :=
    if reading.raw then [attached (.seq [.text "\\", .one fun _ => true])]
    else [attachedLeaf "escape_sequence" escape, attached (.text "\\")]
  let doubled : List (Pattern Rule) :=
    if reading.format then [
      attachedLeaf "escape_interpolation" (.alt [.text "\x7b\x7b", .text "\x7d\x7d"])] else []
  .node "string_content"
    (many1 (.alt (doubled ++ escapes ++ [attached (.run1 isPlain), attached single])))

/-- A string between some quotes. -/
def stringWith (reading : Reading) (quotes : String) : Pattern Rule :=
  let parts := [stringText reading quotes] ++ (if reading.format then [interpolation] else [])
  nodeOf "string" [
    leaf "string_start" (.seq [reading.letters, .text quotes]),
    .many (.alt parts),
    attachedLeaf "string_end" (.text quotes)]

/-- One string after another one makes a node of both. -/
def string : Pattern Rule :=
  let readings : List Reading := [⟨false, false⟩, ⟨true, false⟩, ⟨false, true⟩, ⟨true, true⟩]
  let one := .alt (["\"\"\"", "'''", "\"", "'"].flatMap fun quotes =>
    readings.map fun reading => stringWith reading quotes)
  .seq [
    .ahead (.token none false (.one fun c => "\"'bBfFrRtTuU".contains c)),
    one,
    opt (aroundOf "concatenated_string" [many1 one])]

/-! ## Expressions -/

/-- Parts that several elements are made from. -/
def comprehension : Pattern Rule :=
  let condition := nodeOf "if_clause" ["if", .rule .disjunction]
  let loop := nodeOf "for_in_clause" [
    opt "async", "for", .rule .target,
    opt (aroundOf "pattern_list" [many1 (.seq [",", .rule .target]), opt ","]),
    "in", .rule .disjunction, .many (.seq [",", .rule .disjunction])]
  .seq [loop, .many (.alt [loop, condition])]

/-- All elements of another list. -/
def splat : Pattern Rule := nodeOf "list_splat" ["*", .rule .disjunction]

/-- An element of a list. -/
def element : Pattern Rule := .alt [splat, .rule .expression]

/-- The elements behind the first one of a list. -/
def furtherElements : Pattern Rule := .seq [",", opt (commas element)]

/-- An expression in parentheses, a tuple, or elements to come. -/
def parenthesized : Pattern Rule :=
  nodeOf "tuple" [bracketed "(" [opt (.alt [
    .seq [.ahead "yield", .becomes "parenthesized_expression", .rule .rightSide],
    .seq [element, .alt [
      .seq [.becomes "generator_expression", comprehension],
      furtherElements,
      .becomes "parenthesized_expression"]]])] ")"]

/-- A list. -/
def list : Pattern Rule :=
  nodeOf "list" [bracketed "[" [opt (.seq [element, .alt [
    .seq [.becomes "list_comprehension", comprehension],
    opt furtherElements]])] "]"]

/-- Keys with values, or a set. -/
def dictionary : Pattern Rule :=
  let spread : Pattern Rule := nodeOf "dictionary_splat" ["**", .rule .disjunction]
  let valueOf : Pattern Rule := aroundOf "pair" [sign ":", .rule .expression]
  let entry : Pattern Rule := .alt [spread, .seq [.rule .expression, valueOf]]
  let further : Pattern Rule := .seq [",", opt (commas entry)]
  nodeOf "dictionary" [bracketed "\x7b" [opt (.alt [
    .seq [spread, opt further],
    .seq [element, .alt [
      .seq [valueOf, .alt [
        .seq [.becomes "dictionary_comprehension", comprehension], opt further]],
      .seq [.becomes "set_comprehension", comprehension],
      .seq [.becomes "set", opt furtherElements]]]])] "\x7d"]

/-- What a function is called with. -/
def arguments : Pattern Rule :=
  nodeOf "argument_list" [bracketed "(" [opt (commas (.alt [
    nodeOf "keyword_argument" [named identifier, sign "=", .rule .expression],
    splat,
    nodeOf "dictionary_splat" ["**", .rule .disjunction],
    .seq [.rule .expression, opt (.seq [
      .becomes "generator_expression", comprehension])]]))] ")"]

/-- What selects a part of a value. -/
def subscript : Pattern Rule :=
  let limit : Pattern Rule := opt (.rule .expression)
  let tail : List (Pattern Rule) := [sign ":", limit, opt (.seq [sign ":", limit])]
  bracketed "[" [commas (.alt [
    nodeOf "slice" tail, .seq [element, opt (aroundOf "slice" tail)]])] "]"

/-- An operand, with what selects and calls its parts. -/
def primary : Pattern Rule := .alt [
  nodeOf "await" ["await", .rule .primary],
  followed
    (.alt [
      string,
      wordLeaf "true" "True", wordLeaf "false" "False", wordLeaf "none" "None",
      leaf "ellipsis" (.text "..."),
      leaf "float" floatScan,
      leaf "integer" integerScan,
      identifier,
      parenthesized,
      list,
      dictionary]) [
    aroundOf "attribute" [sign ".", identifier],
    aroundOf "call" [arguments],
    aroundOf "subscript" [subscript]]]

/-- An operand with a sign. -/
def unary : Pattern Rule := .alt [
  nodeOf "unary_operator" [sign "+ - ~", .rule .unary],
  .seq [.rule .primary, opt (aroundOf "binary_operator" [sign "**", .rule .unary])]]

/-- The signs between operands, those that bind most tightly first. -/
def binaryLevels : List String := ["* @ / % //", "+ -", "<< >>", "&", "^", "|"]

/-- A comparison, perhaps negated. -/
def notTest : Pattern Rule :=
  let operand := operators.leftLevels "binary_operator" (.rule .unary) binaryLevels
  let comparison : Pattern Rule := .alt [
    sign "< <= == != >= > <>", "in", .seq ["not", "in"], .seq ["is", "not"], "is"]
  .alt [
    nodeOf "not_operator" ["not", .rule .notTest],
    .seq [operand, opt (aroundOf "comparison_operator" [many1 (.seq [comparison, operand])])]]

/-- Tests that are joined. -/
def disjunction : Pattern Rule :=
  let conjunction := Operators.leftLevel "boolean_operator" "and" (.rule .notTest)
  Operators.leftLevel "boolean_operator" "or" conjunction

/-- A function without a name. -/
def lambda : Pattern Rule :=
  nodeOf "lambda" [
    "lambda", opt (.node "lambda_parameters" (commas (.rule .parameter))), sign ":",
    .rule .expression]

/-- An expression. -/
def expression : Pattern Rule := .alt [
  lambda,
  nodeOf "named_expression" [named identifier, sign ":=", .rule .expression],
  .seq [
    .rule .disjunction,
    opt (aroundOf "conditional_expression" [
      "if", .rule .disjunction, "else", .rule .expression])]]

/-- An expression that may be given a name. -/
def aliased : Pattern Rule :=
  .seq [.rule .expression, opt (aroundOf "as_pattern" [
    "as", .node "as_pattern_target" (.rule .target)])]

/-- Some expressions; several of them are one node. -/
def expressions : Pattern Rule :=
  .seq [element, opt (aroundOf "expression_list" [furtherElements])]

/-- What stands for the values that a generator makes. -/
def yield : Pattern Rule :=
  nodeOf "yield" ["yield", opt (.alt [.seq ["from", .rule .expression], expressions])]

/-! ## Types and parameters -/

/-- A type. -/
def typ : Pattern Rule :=
  let generic := nodeOf "generic_type" [
    identifier, .ahead "[",
    nodeOf "type_parameter" [bracketed "[" [commas (.rule .typ)] "]"]]
  .alt [
    .seq [
      .node "type" generic,
      opt (.seq [aroundOf "union_type" [sign "|", .rule .typ], aroundOf "type" []])],
    nodeOf "type" [nodeOf "splat_type" [.alt ["**", "*"], identifier]],
    .node "type" (.rule .expression)]

/-- What a value can be bound to. -/
def target : Pattern Rule :=
  let several (kind «open» close : String) : Pattern Rule :=
    nodeOf kind [bracketed «open» [opt (commas (.rule .target))] close]
  .alt [
    nodeOf "list_splat_pattern" ["*", .rule .primary],
    .seq [several "tuple_pattern" "(" ")", .absent (sign ".")],
    .seq [several "list_pattern" "[" "]", .absent (sign ".")],
    .rule .primary]

/-- A parameter of a function. -/
def parameter : Pattern Rule :=
  let splatted : Pattern Rule := .alt [
    nodeOf "list_splat_pattern" ["*", identifier],
    nodeOf "dictionary_splat_pattern" ["**", identifier]]
  .alt [
    .seq [splatted, opt (aroundOf "typed_parameter" [sign ":", .rule .typ])],
    .node "keyword_separator" "*",
    .node "positional_separator" "/",
    nodeOf "default_parameter" [named identifier, sign "=", .rule .expression],
    nodeOf "tuple_pattern" [bracketed "(" [commas (.rule .target)] ")"],
    identifier]

/-- A parameter of a function with a name, which may have a type. -/
def typedParameter : Pattern Rule := .alt [
  nodeOf "typed_default_parameter" [
    named identifier, sign ":", .rule .typ, sign "=", .rule .expression],
  nodeOf "typed_parameter" [identifier, sign ":", .rule .typ],
  .rule .parameter]

/-! ## Statements -/

/-- A name with the modules it is found in. -/
def dottedName : Pattern Rule := .node "dotted_name" (sepBy1 (sign ".") identifier)

/-- What is imported, perhaps under another name. -/
def imported : Pattern Rule := .alt [
  named (nodeOf "aliased_import" [named dottedName, "as", identifier]), named dottedName]

/-- What is imported from a module. -/
def importedNames : Pattern Rule := .alt [
  .node "wildcard_import" "*",
  bracketed "(" [commas imported] ")",
  commas imported]

/-- The targets of an assignment. -/
def targets : Pattern Rule :=
  .seq [
    .rule .target,
    opt (aroundOf "pattern_list" [",", opt (commas (.rule .target))])]

/-- An assignment that changes a value. -/
def augmented : Pattern Rule :=
  nodeOf "augmented_assignment" [
    targets, sign "+= -= *= /= @= //= %= **= >>= <<= &= ^= |=", .rule .rightSide]

/-- An assignment. -/
def assignment : Pattern Rule :=
  nodeOf "assignment" [
    targets,
    .alt [
      .seq [sign "=", .rule .rightSide],
      .seq [sign ":", .rule .typ, opt (.seq [sign "=", .rule .rightSide])]]]

/-- What is assigned. -/
def rightSide : Pattern Rule := .alt [augmented, assignment, yield, expressions]

/-- A statement that fits into a line. -/
def simpleStatement : Pattern Rule :=
  let names := commas identifier
  .alt [
    nodeOf "future_import_statement" ["from", "__future__", "import", importedNames],
    nodeOf "import_from_statement" [
      "from",
      .alt [
        nodeOf "relative_import" [
          leaf "import_prefix" (.run1 (· == '.')), opt dottedName],
        dottedName],
      "import", importedNames],
    nodeOf "import_statement" ["import", commas imported],
    nodeOf "assert_statement" ["assert", commas (.rule .expression)],
    nodeOf "return_statement" ["return", opt expressions],
    nodeOf "delete_statement" ["del", expressions],
    nodeOf "raise_statement" ["raise", opt (.seq [
      expressions, opt (.seq ["from", .rule .expression])])],
    .node "pass_statement" "pass",
    .node "break_statement" "break",
    .node "continue_statement" "continue",
    nodeOf "global_statement" ["global", names],
    nodeOf "nonlocal_statement" ["nonlocal", names],
    nodeOf "type_alias_statement" ["type", .rule .typ, sign "=", .rule .typ],
    .node "expression_statement" (.alt [
      augmented, assignment, yield, commas element])]

/-- Simple statements on one line. -/
def simpleStatements : Pattern Rule :=
  .seq [
    sepBy1 ";" simpleStatement, opt ";",
    .remarks fun _ remark => !remark.isFresh,
    otherLine]

/-- The statements that belong to a clause. -/
def suite : Pattern Rule :=
  .seq [sign ":", .alt [
    .seq [sameLine, .node "block" simpleStatements],
    .seq [otherLine, .indented (nodeOf "block" [
      many1 (.seq [.aligned, .rule .statement]),
      .remarks fun indentation remark => remark.isFresh && indentation ≤ remark.column])]]]

/-- A clause that starts a line. -/
def clause (kind : String) (parts : List (Pattern Rule)) : Pattern Rule :=
  .seq [.aligned, nodeOf kind (parts.concat (.rule .suite))]

/-- What is done otherwise. -/
def elseClause : Pattern Rule := opt (clause "else_clause" ["else"])

/-- A function. -/
def function : Pattern Rule :=
  nodeOf "function_definition" [
    opt "async", "def", named identifier,
    opt (nodeOf "type_parameter" [bracketed "[" [commas (.rule .typ)] "]"]),
    nodeOf "parameters" [bracketed "(" [opt (commas typedParameter)] ")"],
    opt (.seq [sign "->", .rule .typ]),
    .rule .suite]

/-- A class. -/
def «class» : Pattern Rule :=
  nodeOf "class_definition" [
    "class", named identifier,
    opt (nodeOf "type_parameter" [bracketed "[" [commas (.rule .typ)] "]"]),
    opt arguments,
    .rule .suite]

/-- What a value of a match can look like. -/
def casePattern : Pattern Rule :=
  let many : Pattern Rule := opt (commas (.rule .casePattern))
  let simple : Pattern Rule := .alt [
    nodeOf "splat_pattern" [.alt ["**", "*"], .alt [identifier, "_"]],
    nodeOf "class_pattern" [
      dottedName, bracketed "(" [opt (commas (.alt [
        nodeOf "case_pattern" [nodeOf "keyword_pattern" [
          identifier, sign "=", .rule .casePattern]],
        .rule .casePattern]))] ")"],
    nodeOf "tuple_pattern" [bracketed "(" [many] ")"],
    nodeOf "list_pattern" [bracketed "[" [many] "]"],
    nodeOf "dict_pattern" [bracketed "\x7b" [opt (commas (.alt [
      nodeOf "splat_pattern" ["**", identifier],
      .seq [.rule .primary, sign ":", .rule .casePattern]]))] "\x7d"],
    string,
    wordLeaf "true" "True", wordLeaf "false" "False", wordLeaf "none" "None",
    .seq [opt (sign "-"), .alt [leaf "float" floatScan, leaf "integer" integerScan]],
    .seq [.word "_", .absent (sign ".")],
    dottedName]
  .node "case_pattern" (.seq [
    simple,
    opt (aroundOf "union_pattern" [many1 (.seq [sign "|", simple])]),
    opt (aroundOf "as_pattern" ["as", identifier])])

/-- A statement that consists of clauses. -/
def compoundStatement : Pattern Rule :=
  let decorator := nodeOf "decorator" [
    "@", .rule .expression, .remarks fun _ remark => !remark.isFresh, otherLine]
  let item := nodeOf "with_item" [aliased]
  .alt [
    nodeOf "if_statement" [
      "if", .rule .expression, .rule .suite,
      .many (clause "elif_clause" ["elif", .rule .expression]),
      elseClause],
    nodeOf "for_statement" [
      opt "async", "for", targets, "in", expressions, .rule .suite, elseClause],
    nodeOf "while_statement" ["while", .rule .expression, .rule .suite, elseClause],
    nodeOf "try_statement" [
      "try", .rule .suite,
      .many (clause "except_clause" [
        "except", opt "*", opt (commas aliased)]),
      elseClause,
      opt (clause "finally_clause" ["finally"])],
    nodeOf "with_statement" [
      opt "async", "with",
      .node "with_clause" (.alt [
        .seq [bracketed "(" [commas item] ")", .ahead (sign ":")],
        commas item]),
      .rule .suite],
    function,
    «class»,
    nodeOf "decorated_definition" [
      many1 (.seq [decorator, .aligned]), .alt [«class», function]],
    nodeOf "match_statement" [
      "match", commas element, sign ":", otherLine,
      .indented (.node "block" (many1 (.seq [
        .aligned,
        nodeOf "case_clause" [
          "case", commas (.rule .casePattern), opt (nodeOf "if_clause" ["if", .rule .expression]),
          .rule .suite]])))]]

/-- A statement. -/
def statement : Pattern Rule := .alt [compoundStatement, simpleStatements]

/-- Comments, and line ends that do not count. -/
def comments : List CommentForm := [
  { kind := "comment", scan := .seq [.text "#", .restOfLine] },
  { kind := "line_continuation"
    scan := .alt [.text "\\\n", .text "\\\r\n"]
    joinsLines := true }]

/-- The grammar of Python. -/
def grammar : Grammar Rule where
  root := "module"
  item := .seq [.aligned, .rule .statement]
  rules
    | .statement => statement
    | .suite => suite
    | .expression => expression
    | .unary => unary
    | .notTest => notTest
    | .primary => primary
    | .disjunction => disjunction
    | .typ => typ
    | .target => target
    | .parameter => parameter
    | .casePattern => casePattern
    | .rightSide => rightSide
  extras := { blank := .run1 Text.isBlank, comments }
  spanning := false

end CodeIndex.Grammar.Python
