import CodeIndex.Grammar.Script.Typing

/-!
# The expressions of scripts

Expressions, the patterns that values are bound to, and the functions and classes that may stand in
either.  `typed` says whether types may be written.

## Main definitions

* `binding` is what a value is bound to, `parameter` a parameter of a function.
* `classBody` holds the members of a class.
* `expression` is an expression and `expressions` several of them.
-/

namespace CodeIndex.Grammar.Script

open Pattern

variable (typed : Bool)

/-- Parts that are there only if types may be written. -/
def ifTyped (parts : List (Pattern Rule)) : Pattern Rule :=
  if typed then opt (.seq parts) else .seq []

/-- The value that a name starts with. -/
def initializer : Pattern Rule := .seq [sign "=", .rule .expression]

/-- Several expressions; more than one of them are one node. -/
def expressions : Pattern Rule :=
  .seq [.rule .expression, opt (aroundOf "sequence_expression" [
    many1 (.seq [",", .rule .expression])])]

/-- Expressions in parentheses. -/
def parenthesized : Pattern Rule := nodeOf "parenthesized_expression" [parens [expressions]]

/-- Statements in braces. -/
def statementBlock : Pattern Rule := nodeOf "statement_block" [braces [.many (.rule .statement)]]

/-- A remark that code can see. -/
def decorator : Pattern Rule := nodeOf "decorator" ["@", .rule .unary]

/-! ## Bindings -/

/-- What a value, or a part of it, is bound to. -/
def binding : Pattern Rule :=
  let shorthand : Pattern Rule := nameOf "shorthand_property_identifier_pattern"
  let withDefault (part : Pattern Rule) : Pattern Rule :=
    .seq [part, opt (aroundOf "assignment_pattern" [initializer])]
  let rest : Pattern Rule := nodeOf "rest_pattern" ["...", .rule .binding]
  .alt [
    nodeOf "object_pattern" [braces [commaList (.alt [
      nodeOf "pair_pattern" [propertyName, sign ":", withDefault (.rule .binding)],
      rest,
      .seq [shorthand, opt (aroundOf "object_assignment_pattern" [initializer])]])]],
    nodeOf "array_pattern" [brackets [
      .many ",", opt (sepBy1 (many1 ",") (.alt [rest, withDefault (.rule .binding)])), .many ","]],
    identifier]

/-- What the value of an expression can be assigned to, if it has parts. -/
def destructuring : Pattern Rule :=
  .seq [.ahead (.alt ["\x7b", "["]), .rule .binding]

/-- A parameter of a function. -/
def parameter : Pattern Rule :=
  let rest : Pattern Rule := nodeOf "rest_pattern" ["...", .rule .binding]
  if typed then
    nodeOf "required_parameter" [
      .many decorator, opt accessibility, opt overriding, opt (modifierWord "readonly"),
      .alt [rest, .rule .binding, wordLeaf "this" "this"],
      opt (.seq ["?", .becomes "optional_parameter"]),
      opt typeMark, opt initializer]
  else
    .alt [rest, .seq [.rule .binding, opt (aroundOf "assignment_pattern" [initializer])]]

/-! ## Functions and classes -/

/-- The word before a function that waits for others. -/
def asyncWord : Pattern Rule := opt (.seq [modifierWord "async", sameLine])

/-- A function, its name being of the pattern `name`. -/
def functionAs (kind generator : String) (name : Pattern Rule) : Pattern Rule :=
  nodeOf kind ([
    opt "async", "function", opt (.seq ["*", .becomes generator]), name] ++
    callSignature typed ++ [statementBlock])

/-- A method with its body. -/
def methodDefinition : Pattern Rule :=
  nodeOf "method_definition" ([
    if typed then .seq [] else .many decorator,
    ifTyped typed [accessibility], opt (modifierWord "static"), ifTyped typed [overriding],
    ifTyped typed [modifierWord "readonly"], asyncWord,
    opt (.alt [modifierWord "get", modifierWord "set", "*"]),
    named propertyName, ifTyped typed ["?"]] ++
    callSignature typed ++ [statementBlock])

/-- A field of a class. -/
def field : Pattern Rule :=
  if typed then
    nodeOf "public_field_definition" [
      .many decorator, opt (modifierWord "declare"), opt accessibility,
      opt (modifierWord "static"), opt overriding, opt (modifierWord "abstract"),
      opt (modifierWord "readonly"), opt (modifierWord "accessor"),
      named propertyName, opt (.alt ["?", sign "!"]), opt typeMark, opt initializer]
  else
    nodeOf "field_definition" [
      .many decorator, opt (modifierWord "static"), propertyName, opt initializer]

/-- A method without its body. -/
def methodSignature : Pattern Rule :=
  nodeOf "method_signature" ([
    opt accessibility, opt (modifierWord "static"), opt overriding,
    opt (.seq [modifierWord "abstract", .becomes "abstract_method_signature", opt overriding]),
    opt (modifierWord "readonly"), asyncWord,
    opt (.alt [modifierWord "get", modifierWord "set", "*"]),
    named propertyName, opt "?"] ++ callSignature true)

/-- The members of a class. -/
def classBody : Pattern Rule :=
  let signature : Pattern Rule := .seq [
    .alt [methodSignature, indexSignature], .alt [",", semicolon]]
  let method : Pattern Rule := .seq [
    if typed then .many decorator else .seq [], methodDefinition typed, opt ";"]
  nodeOf "class_body" [braces [.many (.alt [
    ";",
    nodeOf "class_static_block" ["static", statementBlock],
    method,
    if typed then signature else .alt [],
    .seq [field typed, .alt [",", semicolon]]])]]

/-- What a class is derived from. -/
def heritage : Pattern Rule :=
  let «extends» : Pattern Rule :=
    nodeOf "extends_clause" ["extends", .rule .unary, opt typeArguments]
  let implements : Pattern Rule :=
    nodeOf "implements_clause" ["implements", sepBy1 "," (.rule .typ)]
  if typed then
    .node "class_heritage" (.alt [.seq [«extends», opt implements], implements])
  else nodeOf "class_heritage" ["extends", .rule .unary]

/-- The name of a class. -/
def className : Pattern Rule := named (if typed then typeIdentifier else identifier)

/-- What follows the name of a class. -/
def classTail : Pattern Rule :=
  .seq [ifTyped typed [typeParameters], opt (heritage typed), classBody typed]

/-! ## Operands -/

/-- The members of an object. -/
def object : Pattern Rule :=
  nodeOf "object" [braces [commaList (.alt [
    nodeOf "spread_element" ["...", .rule .expression],
    methodDefinition typed,
    nodeOf "pair" [propertyName, sign ":", .rule .expression],
    .seq [
      nameOf "shorthand_property_identifier",
      opt (aroundOf "object_assignment_pattern" [initializer])]])]]

/-- What a function is called with. -/
def arguments : Pattern Rule :=
  nodeOf "arguments" [parens [commaList (.alt [
    nodeOf "spread_element" ["...", .rule .expression], .rule .expression])]]

/-- The start of an expression, to which calls and members may be added. -/
def operand : Pattern Rule := .alt [
  leaf "number" numberScan,
  string,
  templateOf "template_string" "template_substitution" expressions,
  regex,
  functionAs typed "function_expression" "generator_function" (opt (named identifier)),
  nodeOf "class" [.many decorator, "class", opt (className typed), classTail typed],
  wordLeaf "this" "this", wordLeaf "super" "super", wordLeaf "true" "true",
  wordLeaf "false" "false", wordLeaf "null" "null", wordLeaf "undefined" "undefined",
  nodeOf "array" [brackets [
    .many ",",
    opt (sepBy1 (many1 ",") (.alt [
      nodeOf "spread_element" ["...", .rule .expression], .rule .expression])),
    .many ","]],
  object typed,
  parenthesized,
  nodeOf "meta_property" ["new", sign ".", "target"],
  nodeOf "meta_property" ["import", sign ".", "meta"],
  .seq [wordLeaf "import" "import", .ahead "("],
  identifier]

/-- The parts that select from what stands before them. -/
def selectors : List (Pattern Rule) :=
  let chain : Pattern Rule := leaf "optional_chain" (.word "?.")
  [
    aroundOf "member_expression" [.alt [sign ".", chain], propertyIdentifier],
    aroundOf "subscript_expression" [opt chain, brackets [expressions]]] ++
  (if typed then [.seq [sameLine, aroundOf "non_null_expression" [sign "!"]]] else [])

/-- What is made of a class. -/
def newExpression : Pattern Rule :=
  nodeOf "new_expression" [
    "new", followed (operand typed) (selectors typed), ifTyped typed [typeArguments, .ahead "("],
    opt arguments]

/-- A call. -/
def calls : List (Pattern Rule) :=
  let chain : Pattern Rule := opt (leaf "optional_chain" (.word "?."))
  [aroundOf "call_expression" [chain, ifTyped typed [typeArguments, .ahead "("], arguments],
    aroundOf "call_expression" [templateOf "template_string" "template_substitution" expressions]]

/-- An operand with signs before and behind it. -/
def unary : Pattern Rule := .alt [
  nodeOf "update_expression" [sign "++ --", .rule .unary],
  nodeOf "unary_expression" [
    .alt [sign "! ~ - +", "typeof", "void", "delete"], .rule .unary],
  nodeOf "await_expression" ["await", .rule .unary],
  if typed then nodeOf "type_assertion" [typeArguments, .rule .unary] else .alt [],
  .seq [
    followed (.alt [newExpression typed, operand typed]) (selectors typed ++ calls typed),
    opt (.seq [sameLine, aroundOf "update_expression" [sign "++ --"]])]]

/-! ## Expressions -/

/-- The signs between operands, those that bind most tightly first. -/
def binaryLevels : List String :=
  ["* / %", "+ -", "<< >> >>>", "< <= > >=", "== != === !==", "&", "^", "|", "&&", "||", "??"]

/-- Operands with signs between them. -/
def binary : Pattern Rule :=
  let power := .seq [
    .rule .unary, opt (aroundOf "binary_expression" [sign "**", .rule .unary])]
  let shift := operators.leftLevels "binary_expression" power (binaryLevels.take 3)
  let relation : Pattern Rule := .alt [sign "< <= > >=", "instanceof", "in"]
  let casts : List (Pattern Rule) :=
    if typed then [
      .seq [sameLine, aroundOf "as_expression" ["as", .alt ["const", .rule .typ]]],
      .seq [sameLine, aroundOf "satisfies_expression" ["satisfies", .rule .typ]]]
    else []
  let compared := followed shift ([aroundOf "binary_expression" [relation, shift]] ++ casts)
  operators.leftLevels "binary_expression" compared (binaryLevels.drop 4)

/-- A function that is written with an arrow. -/
def arrow : Pattern Rule :=
  nodeOf "arrow_function" [
    .alt [
      .seq [opt (.seq ["async", sameLine]), .seq (callSignature typed), sameLine, "=>"],
      .seq ["async", sameLine, identifier, sameLine, "=>"],
      .seq [identifier, sameLine, "=>"]],
    .alt [statementBlock, .rule .expression]]

/-- An expression. -/
def expression : Pattern Rule :=
  let assigned : Pattern Rule := .seq [sign "=", .rule .expression]
  .alt [
    arrow typed,
    nodeOf "yield_expression" ["yield", opt (.seq [
      sameLine, opt "*", .absent (.alt [")", "]", "\x7d", ",", ";"]), .rule .expression])],
    nodeOf "assignment_expression" [destructuring, assigned],
    .seq [
      binary typed,
      opt (.alt [
        aroundOf "ternary_expression" ["?", .rule .expression, sign ":", .rule .expression],
        aroundOf "assignment_expression" [assigned],
        aroundOf "augmented_assignment_expression" [
          sign "+= -= *= /= %= **= <<= >>= >>>= &= |= ^= &&= ||= ??=", .rule .expression]])]]

end CodeIndex.Grammar.Script
