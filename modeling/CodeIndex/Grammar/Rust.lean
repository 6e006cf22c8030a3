import CodeIndex.Grammar.Combinators
import CodeIndex.Grammar.Machine
import CodeIndex.Text.WordCharacter

/-!
# The grammar of Rust

A source is a sequence of statements: declarations, of which most are named, and expressions.
Types, patterns and expressions nest in each other, and a macro call holds tokens that are grouped by their
brackets only.

An expression in front of a block, such as a condition, holds no record literal outside brackets,
because its brace would be taken for that of the block.  `Rule.expression` and `Rule.unary` say
whether record literals may occur.

## Main definitions

* `typ`, `pattern`, `expressionWith` and `statement` are the four kinds of patterns.
* `grammar` is the grammar.
-/

namespace CodeIndex.Grammar.Rust

open Pattern

/-- The patterns that occur inside each other. -/
inductive Rule where
  | statement
  | declaration
  | block
  | expression (records : Bool)
  | unary (records : Bool)
  | simpleType
  | typ
  | pattern
  | simplePattern
  | ifExpression
  | useClause
  | tokens
  | tokenPatterns

/-! ## Tokens -/

/-- Words that are no names. -/
def reserved : List String := [
  "as", "async", "await", "break", "const", "continue", "crate", "dyn", "else", "enum", "extern",
  "false", "fn", "for", "if", "impl", "in", "let", "loop", "match", "mod", "move", "mut", "pub",
  "ref", "return", "self", "static", "struct", "super", "trait", "true", "type", "unsafe", "use",
  "where", "while"]

/-- The names of the types that the language brings along. -/
def primitiveTypes : List String := [
  "u8", "i8", "u16", "i16", "u32", "i32", "u64", "i64", "u128", "i128", "isize", "usize", "f32",
  "f64", "bool", "str", "char"]

/-- A character that a name starts with. -/
def isNameStart (c : Char) : Bool := Scan.isNamePart c && !c.isDigit

/-- A name, which a mark may set apart from a reserved word. -/
def nameScan (reserved : List String) : Scan := .alt [
  .seq [.text "r#", .name isNameStart Scan.isNamePart []],
  .name isNameStart Scan.isNamePart reserved]

/-- A name as a node of some kind. -/
def nameOf (kind : String) : Pattern Rule := leaf kind (nameScan reserved)

/-- The name of a value. -/
def identifier : Pattern Rule := nameOf "identifier"

/-- The name of a type. -/
def typeIdentifier : Pattern Rule := nameOf "type_identifier"

/-- The name of a field. -/
def fieldIdentifier : Pattern Rule := nameOf "field_identifier"

/-- The name of a type that the language brings along. -/
def primitiveType : Pattern Rule :=
  leaf "primitive_type" (.alt (primitiveTypes.map Scan.word))

/-- The signs. -/
def operators : Operators := .ofString (
  "+ - * / % ^ & | && || << >> += -= *= /= %= ^= &= |= <<= >>= " ++
  "= == != > < >= <= => -> . .. ..= ... ! ? :: :")

/-- One of some signs. -/
def sign (wanted : String) : Pattern Rule := operators.sign wanted

/-- The word for a place that can be changed. -/
def mutableSpecifier : Pattern Rule := wordLeaf "mutable_specifier" "mut"

/-- A letter or digit of a number. -/
def isDigitOrBlank (c : Char) : Bool := c.isDigit || c == '_'

/-- The types that a floating-point number may name. -/
def floatSuffix : Scan := .alt [.word "f32", .word "f64", .word "_f32", .word "_f64"]

/-- The power of ten at the end of a number. -/
def power : Scan := .seq [
  .one fun c => c == 'e' || c == 'E', .opt (.one fun c => c == '+' || c == '-'),
  .run1 isDigitOrBlank]

/-- Decimal digits. -/
def digits : Scan := .seq [.one Char.isDigit, .run isDigitOrBlank]

/-- A floating-point number. -/
def floatScan : Scan := .alt [
  .seq [digits, .text ".", digits, .opt power, .opt floatSuffix],
  .seq [digits, power, .opt floatSuffix],
  .seq [digits, floatSuffix],
  .notBefore (.seq [digits, .text "."]) (.one fun c => c == '.' || Scan.isNamePart c)]

/-- An integer, in any base and perhaps with its type. -/
def integerScan : Scan := .seq [.one Char.isDigit, .run Scan.isNamePart]

/-- What stands for a character that cannot stand for itself. -/
def escape : Scan := .seq [.text "\\", .alt [
  .seq [.text "u\x7b", .run1 Char.isAlphanum, .text "\x7d"],
  .seq [.text "x", .one Char.isAlphanum, .one Char.isAlphanum],
  .seq [.alt [.text "\r\n", .text "\n"], .run Char.isWhitespace],
  .one fun _ => true]]

/-- A character in quotes. -/
def charScan : Scan := .seq [
  .opt (.text "b"), .text "'", .alt [escape, .one fun c => c != '\'' && c != '\\'], .text "'"]

/-- A string. -/
def stringLiteral : Pattern Rule :=
  nodeOf "string_literal" [
    .token none false (.seq [.opt (.one fun c => c == 'b' || c == 'c'), .text "\""]),
    .many (.alt [
      attachedLeaf "string_content" (.run1 fun c => c != '"' && c != '\\'),
      attachedLeaf "escape_sequence" escape]),
    attachedWord "\""]

/-- A string between quotes and a number of marks. -/
def rawStringWith (marks : String) : Pattern Rule :=
  nodeOf "raw_string_literal" [
    .token none false (.seq [
      .opt (.one fun c => c == 'b' || c == 'c'), .text "r", .text marks, .text "\""]),
    attachedLeaf "string_content" (.before (.text ("\"" ++ marks))),
    attachedWord ("\"" ++ marks)]

/-- A literal. -/
def literal : Pattern Rule := .alt [
  stringLiteral, rawStringWith "", rawStringWith "#", rawStringWith "##", rawStringWith "###",
  leaf "char_literal" charScan,
  leaf "boolean_literal" (.alt [.word "true", .word "false"]),
  leaf "float_literal" floatScan,
  leaf "integer_literal" integerScan]

/-- A mark and a name behind it. -/
def tick (kind : String) : Pattern Rule :=
  nodeOf kind [
    "'",
    attachedLeaf "identifier" (.notBefore (.name isNameStart Scan.isNamePart []) (.text "'"))]

/-- The name of a lifetime. -/
def lifetime : Pattern Rule := tick "lifetime"

/-- The name of a loop. -/
def label : Pattern Rule := tick "label"

/-! ## Tokens in brackets -/

/-- The words in a macro call that are no nodes. -/
def plainWords : List String := [
  "as", "async", "await", "break", "const", "continue", "default", "enum", "fn", "for", "if",
  "impl", "let", "loop", "match", "mod", "pub", "return", "static", "struct", "trait", "type",
  "union", "unsafe", "use", "where", "while"]

/-- A sign in a macro call. -/
def isPlainSign (c : Char) : Bool := "+-*/%^!&|=><@_.,;:#?~'".contains c

/-- A placeholder in a macro. -/
def metavariable : Pattern Rule :=
  leaf "metavariable" (.seq [.text "$", .name isNameStart Scan.isNamePart []])

/-- A token of a macro call that is no group. -/
def plainToken : Pattern Rule := .alt [
  literal,
  wordLeaf "self" "self", wordLeaf "super" "super", wordLeaf "crate" "crate", mutableSpecifier,
  primitiveType,
  .token none false (.alt (plainWords.map Scan.word)),
  leaf "identifier" (.seq [.opt (.text "r#"), .name isNameStart Scan.isNamePart []]),
  .token none false (.run1 isPlainSign)]

/-- Parts in any brackets. -/
def inBrackets (kind : String) (part : Pattern Rule) : Pattern Rule := .alt [
  nodeOf kind [parens [.many part]],
  nodeOf kind [brackets [.many part]],
  nodeOf kind [braces [.many part]]]

/-- What a repetition ends with: a separator, and how often. -/
def repetitionEnd : Pattern Rule := .seq [
  ")",
  opt (.token none false (.run1 fun c => !"+*? \n".contains c)),
  .token none false (.one fun c => "+*?".contains c)]

/-- The tokens of a macro call. -/
def tokens : Pattern Rule := inBrackets "token_tree" <| .alt [
  .rule .tokens,
  nodeOf "token_repetition" ["$", "(", .many (.alt [.rule .tokens, metavariable, plainToken]),
    repetitionEnd],
  metavariable,
  plainToken]

/-- The tokens that a rule of a macro looks for. -/
def tokenPatterns : Pattern Rule :=
  let binding := nodeOf "token_binding_pattern" [
    named metavariable, ":", leaf "fragment_specifier" (.run1 Scan.isNamePart)]
  inBrackets "token_tree_pattern" <| .alt [
    .rule .tokenPatterns,
    nodeOf "token_repetition_pattern" ["$", "(",
      .many (.alt [.rule .tokenPatterns, binding, metavariable, plainToken]), repetitionEnd],
    binding,
    metavariable,
    plainToken]

/-! ## Paths and types -/

/-- The first part of a path. -/
def pathStart : Pattern Rule := .alt [
  wordLeaf "self" "self", wordLeaf "super" "super", wordLeaf "crate" "crate", identifier,
  metavariable]

/-- A further part of a path. -/
def pathStep : Pattern Rule :=
  aroundOf "scoped_identifier" ["::", named (.alt [identifier, wordLeaf "super" "super"])]

/-- A path from the outermost module. -/
def globalPath : Pattern Rule := nodeOf "scoped_identifier" ["::", named identifier]

/-- A path. -/
def path : Pattern Rule := followed (.alt [globalPath, pathStart]) [pathStep]

/-- What the types in a list are given as. -/
def typeArguments : Pattern Rule :=
  nodeOf "type_arguments" [
    "<",
    commaList1 <| .alt [
      lifetime,
      nodeOf "type_binding" [named typeIdentifier, sign "=", .rule .typ],
      .seq [.rule .typ, opt (nodeOf "trait_bounds" [":", sepBy1 "+" (.rule .simpleType)])],
      literal,
      .rule .block],
    ">"]

/-- What a type has to fulfil. -/
def traitBounds : Pattern Rule :=
  nodeOf "trait_bounds" [
    ":",
    opt (sepBy1 "+" <| .alt [
      lifetime,
      nodeOf "higher_ranked_trait_bound" [
        "for", nodeOf "type_parameters" ["<", commaList1 (nodeOf "lifetime_parameter"
          [named lifetime]), ">"],
        .rule .simpleType],
      nodeOf "removed_trait_bound" ["?", .rule .simpleType],
      .rule .simpleType])]

/-- What an attribute says. -/
def attributeBody : Pattern Rule :=
  nodeOf "attribute" [
    path,
    opt (.alt [.seq [sign "=", .rule (.expression true)], .rule .tokens])]

/-- An attribute of what follows. -/
def outerAttribute : Pattern Rule := nodeOf "attribute_item" ["#", brackets [attributeBody]]

/-- An attribute of what it stands in. -/
def innerAttribute : Pattern Rule :=
  nodeOf "inner_attribute_item" ["#", "!", brackets [attributeBody]]

/-- The parameters that stand for types, lifetimes and constants. -/
def typeParameters : Pattern Rule :=
  nodeOf "type_parameters" [
    "<",
    commaList <| .seq [
      .many outerAttribute,
      .alt [
        nodeOf "lifetime_parameter" [named lifetime, opt traitBounds],
        nodeOf "const_parameter" [
          "const", named identifier, ":", .rule .typ,
          opt (.seq [sign "=", .alt [.rule .block, literal, identifier]])],
        nodeOf "type_parameter" [
          named typeIdentifier, opt traitBounds, opt (.seq [sign "=", .rule .typ])],
        metavariable]],
    ">"]

/-- The words before a function. -/
def functionModifiers : Pattern Rule :=
  .node "function_modifiers" <| many1 <| .alt [
    "async", "default", "const", "unsafe", nodeOf "extern_modifier" ["extern", opt stringLiteral]]

/-- The parameters of a function. -/
def parameters : Pattern Rule :=
  nodeOf "parameters" [parens [commaList <| .seq [
    .many outerAttribute,
    .alt [
      nodeOf "self_parameter" [
        opt "&", opt lifetime, opt mutableSpecifier, wordLeaf "self" "self", .absent ":"],
      nodeOf "variadic_parameter" [
        opt mutableSpecifier, opt (.seq [.rule .pattern, ":"]), "..."],
      nodeOf "parameter" [
        opt mutableSpecifier, .alt [.rule .pattern, wordLeaf "self" "self"], ":", .rule .typ],
      .rule .typ]]]]

/-- The type of a result. -/
def result : Pattern Rule := .seq ["->", .rule .typ]

/-- The first part of a path of a type. -/
def typePathStart : Pattern Rule := .alt [
  .seq [primitiveType, .absent "::"],
  .seq [
    .alt [globalPath, pathStart], .ahead "::",
    .many (aroundOf "scoped_identifier" ["::", named identifier, .ahead (.seq ["::", identifier])]),
    aroundOf "scoped_type_identifier" ["::", named typeIdentifier]],
  nodeOf "scoped_type_identifier" ["::", named typeIdentifier],
  nodeOf "scoped_type_identifier" [
    nodeOf "bracketed_type" [
      "<",
      .alt [nodeOf "qualified_type" [.rule .typ, "as", .rule .typ], .rule .typ],
      ">"],
    "::",
    named typeIdentifier],
  typeIdentifier,
  metavariable]

/-- A type that is no sum of types. -/
def simpleType : Pattern Rule := .alt [
  nodeOf "reference_type" [
    "&", opt lifetime, opt mutableSpecifier, .rule .simpleType],
  nodeOf "pointer_type" ["*", .alt ["const", mutableSpecifier], .rule .simpleType],
  nodeOf "array_type" [brackets [.rule .typ, opt (.seq [";", .rule (.expression true)])]],
  nodeOf "unit_type" [parens [opt (.seq [.becomes "tuple_type", commaList1 (.rule .typ)])]],
  .node "never_type" "!",
  nodeOf "abstract_type" ["impl", .rule .simpleType],
  nodeOf "dynamic_type" ["dyn", .rule .simpleType],
  nodeOf "function_type" [
    opt (nodeOf "for_lifetimes" ["for", "<", commaList1 lifetime, ">"]),
    opt functionModifiers, "fn", parameters, opt result],
  nodeOf "macro_invocation" [path, "!", .rule .tokens],
  followed typePathStart [
    aroundOf "generic_type" [opt "::", typeArguments],
    aroundOf "function_type" [parameters, opt result],
    aroundOf "scoped_type_identifier" ["::", named typeIdentifier]]]

/-- A type. -/
def typ : Pattern Rule :=
  followed (.rule .simpleType) [
    aroundOf "bounded_type" [sign "+", .alt [lifetime, .rule .simpleType]]]

/-- What types have to fulfil for a declaration to hold. -/
def whereClause : Pattern Rule :=
  nodeOf "where_clause" [
    "where",
    commaList (nodeOf "where_predicate" [.alt [lifetime, .rule .simpleType], traitBounds])]

/-! ## Patterns -/

/-- A literal or a path at one end of a range. -/
def bound : Pattern Rule := .alt [
  literal, nodeOf "negative_literal" [sign "-", literal], .seq [path, .absent "("]]

/-- What a field of a record has to match. -/
def fieldPattern : Pattern Rule := .alt [
  .node "remaining_field_pattern" "..",
  nodeOf "field_pattern" [
    opt "ref", opt mutableSpecifier,
    .alt [
      .seq [named fieldIdentifier, ":", .rule .pattern],
      named (nameOf "shorthand_field_identifier")]]]

/-- A pattern without alternatives. -/
def simplePattern : Pattern Rule := .alt [
  nodeOf "range_pattern" [bound, sign "..= ... ..", opt bound],
  literal,
  nodeOf "negative_literal" [sign "-", literal],
  nodeOf "ref_pattern" ["ref", .rule .simplePattern],
  nodeOf "mut_pattern" [mutableSpecifier, .rule .simplePattern],
  nodeOf "reference_pattern" ["&", opt mutableSpecifier, .rule .simplePattern],
  nodeOf "slice_pattern" [brackets [commaList (.rule .pattern)]],
  nodeOf "tuple_pattern" [parens [commaList (.rule .pattern)]],
  .node "remaining_field_pattern" "..",
  nodeOf "macro_invocation" [path, "!", .rule .tokens],
  nodeOf "captured_pattern" [identifier, "@", .rule .simplePattern],
  nodeOf "struct_pattern" [
    .role "type" typePathStart, braces [commaList fieldPattern]],
  nodeOf "tuple_struct_pattern" [path, parens [commaList (.rule .pattern)]],
  "_",
  path]

/-- A pattern. -/
def pattern : Pattern Rule :=
  followed (.seq [opt (sign "|"), .rule .simplePattern]) [
    aroundOf "or_pattern" [sign "|", .rule .simplePattern]]

/-! ## Expressions -/

/-- What is done under a condition. -/
def ifExpression : Pattern Rule :=
  nodeOf "if_expression" [
    "if", .rule (.expression false), .rule .block,
    opt (nodeOf "else_clause" ["else", .alt [.rule .block, .rule .ifExpression]])]

/-- One of the cases of a match. -/
def matchArm : Pattern Rule :=
  nodeOf "match_arm" [
    .many (.alt [outerAttribute, innerAttribute]),
    nodeOf "match_pattern" [.rule .pattern, opt (.seq ["if", .rule (.expression false)])],
    "=>",
    .rule (.expression true),
    opt ","]

/-- An expression that ends with a block. -/
def blockLike : Pattern Rule :=
  let mark : Pattern Rule := opt (.seq [label, ":"])
  let condition : Pattern Rule := .rule (.expression false)
  .alt [
    .rule .ifExpression,
    nodeOf "match_expression" [
      "match", condition, nodeOf "match_block" [braces [.many matchArm]]],
    nodeOf "while_expression" [mark, "while", condition, .rule .block],
    nodeOf "loop_expression" [mark, "loop", .rule .block],
    nodeOf "for_expression" [mark, "for", .rule .pattern, "in", condition, .rule .block],
    nodeOf "unsafe_block" ["unsafe", .rule .block],
    nodeOf "async_block" ["async", opt "move", .rule .block],
    nodeOf "const_block" ["const", .rule .block],
    .rule .block]

/-- The expressions that are passed to a function. -/
def arguments : Pattern Rule :=
  nodeOf "arguments" [parens [commaList (.seq [.many outerAttribute, .rule (.expression true)])]]

/-- The fields of a record literal. -/
def fieldInitializers : Pattern Rule :=
  nodeOf "field_initializer_list" [braces [commaList <| .alt [
    nodeOf "field_initializer" [
      .many outerAttribute, .alt [fieldIdentifier, leaf "integer_literal" integerScan], ":",
      .rule (.expression true)],
    nodeOf "base_field_initializer" ["..", .rule (.expression true)],
    nodeOf "shorthand_field_initializer" [.many outerAttribute, identifier]]]]

/-- A function without a name. -/
def closure (records : Bool) : Pattern Rule :=
  nodeOf "closure_expression" [
    opt "static", opt "async", opt "move",
    nodeOf "closure_parameters" [
      "|",
      commaList (.alt [
        nodeOf "parameter" [.rule .simplePattern, ":", .rule .typ], .rule .simplePattern]),
      "|"],
    .alt [.seq [result, .rule .block], .rule (.expression records)]]

/-- The start of an expression, to which calls and fields may be added. -/
def primary (records : Bool) : Pattern Rule :=
  let self : Pattern Rule := .rule (.expression records)
  let inner : Pattern Rule := .rule (.expression true)
  .alt <| [
    literal,
    closure records,
    nodeOf "unit_expression" [parens [opt (.seq [
      inner,
      .alt [
        .seq [",", .becomes "tuple_expression", commaList inner],
        .becomes "parenthesized_expression"]])]],
    nodeOf "array_expression" [brackets [
      .many outerAttribute,
      opt (.seq [inner, .alt [.seq [";", inner], opt (.seq [",", commaList inner])]])]],
    nodeOf "return_expression" ["return", opt self],
    nodeOf "break_expression" ["break", opt label, opt self],
    nodeOf "continue_expression" ["continue", opt label],
    blockLike,
    nodeOf "macro_invocation" [path, "!", .absent "=", .rule .tokens]] ++
  (if records then [nodeOf "struct_expression" [
    named (followed typePathStart [aroundOf "generic_type" ["::", typeArguments]]),
    fieldInitializers]] else []) ++ [
    nodeOf "scoped_identifier" [
      nodeOf "bracketed_type" [
        "<",
        .alt [nodeOf "qualified_type" [.rule .typ, "as", .rule .typ], .rule .typ],
        ">"],
      "::",
      named identifier],
    followed (.alt [globalPath, pathStart]) [
      aroundOf "generic_type" ["::", typeArguments, .ahead "::"], pathStep]]

/-- An expression without operators between operands. -/
def unaryWith (records : Bool) : Pattern Rule := .alt [
  nodeOf "unary_expression" [.alt ["-", "*", "!"], .rule (.unary records)],
  nodeOf "reference_expression" ["&", opt mutableSpecifier, .rule (.unary records)],
  followed (primary records) [
    aroundOf "await_expression" [".", "await"],
    aroundOf "field_expression" [
      sign ".", .alt [fieldIdentifier, leaf "integer_literal" (.run1 Char.isDigit)]],
    aroundOf "call_expression" [arguments],
    aroundOf "index_expression" [brackets [.rule (.expression true)]],
    aroundOf "try_expression" ["?"],
    aroundOf "generic_function" ["::", typeArguments]]]

/-- The signs between operands, those that bind most tightly first. -/
def binaryLevels : List String :=
  ["* / %", "+ -", "<< >>", "&", "^", "|", "== != < <= > >=", "&&", "||"]

/-- An expression. -/
def expressionWith (records : Bool) : Pattern Rule :=
  let cast := followed (.rule (.unary records)) [
    aroundOf "type_cast_expression" ["as", .rule .simpleType]]
  let condition := operators.leftLevels "binary_expression" cast (binaryLevels.take 7)
  let letCondition := nodeOf "let_condition" ["let", .rule .pattern, sign "=", condition]
  let further := .seq [sign "&&", .alt [letCondition, condition]]
  let binary := operators.leftLevels "binary_expression" cast binaryLevels
  let range := .alt [
    nodeOf "range_expression" [sign ".. ..=", opt binary],
    .seq [binary, opt (aroundOf "range_expression" [sign ".. ..= ...", opt binary])]]
  .alt [
    .seq [letCondition, opt (aroundOf "let_chain" [many1 further])],
    .seq [
      range,
      opt (.alt [
        aroundOf "let_chain" [sign "&&", letCondition, .many further],
        aroundOf "assignment_expression" [sign "=", .rule (.expression records)],
        aroundOf "compound_assignment_expr" [
          sign "+= -= *= /= %= ^= &= |= <<= >>=", .rule (.expression records)]])]]

/-- An expression that may hold record literals. -/
def anyExpression : Pattern Rule := expressionWith true

/-- An expression in front of a block. -/
def headExpression : Pattern Rule := expressionWith false

/-- An operand that may be a record literal. -/
def anyUnary : Pattern Rule := unaryWith true

/-- An operand in front of a block. -/
def headUnary : Pattern Rule := unaryWith false

/-! ## Statements -/

/-- Who may use what is declared. -/
def visibility : Pattern Rule :=
  nodeOf "visibility_modifier" [
    "pub",
    opt (parens [.alt [
      .seq [wordLeaf "self" "self", .ahead ")"], .seq [wordLeaf "super" "super", .ahead ")"],
      .seq [wordLeaf "crate" "crate", .ahead ")"], .seq ["in", path]]])]

/-- A declaration that others may be allowed to use. -/
def declared (kind : String) (parts : List (Pattern Rule)) : Pattern Rule :=
  nodeOf kind (opt visibility :: parts)

/-- The fields of a record. -/
def fieldDeclarations : Pattern Rule :=
  nodeOf "field_declaration_list" [braces [commaList <| .seq [
    .many outerAttribute,
    declared "field_declaration" [named fieldIdentifier, ":", .rule .typ]]]]

/-- The fields without names of a record. -/
def orderedFields : Pattern Rule :=
  nodeOf "ordered_field_declaration_list" [parens [commaList <| .seq [
    .many outerAttribute, opt visibility, .rule .typ]]]

/-- Declarations in braces. -/
def declarationList : Pattern Rule :=
  nodeOf "declaration_list" [braces [.many (.rule .declaration)]]

/-- A path that a list or a wildcard follows. -/
def usePath : Pattern Rule :=
  followed (.alt [globalPath, pathStart]) [
    aroundOf "scoped_identifier" [
      "::", named (.alt [identifier, wordLeaf "super" "super"]), .ahead "::"]]

/-- What a use declaration brings into scope. -/
def useClause : Pattern Rule :=
  let list := nodeOf "use_list" [braces [commaList (.rule .useClause)]]
  .alt [
    nodeOf "use_as_clause" [path, "as", .alt [identifier, "_"]],
    nodeOf "scoped_use_list" [opt usePath, "::", list],
    list,
    nodeOf "use_wildcard" [opt (.seq [usePath, "::"]), "*"],
    path]

/-- The declarations in words. -/
def namedDeclarations : List (Pattern Rule) := [
  declared "mod_item" ["mod", named identifier, .alt [";", declarationList]],
  declared "struct_item" [
    "struct", named typeIdentifier, opt typeParameters,
    .alt [
      .seq [opt whereClause, fieldDeclarations],
      .seq [orderedFields, opt whereClause, ";"],
      ";"]],
  declared "enum_item" [
    "enum", named typeIdentifier, opt typeParameters, opt whereClause,
    nodeOf "enum_variant_list" [braces [commaList <| .seq [
      .many outerAttribute,
      declared "enum_variant" [
        named identifier, opt (.alt [fieldDeclarations, orderedFields]),
        opt (.seq [sign "=", .rule (.expression true)])]]]]],
  declared "function_item" [
    opt functionModifiers, "fn", named (.alt [identifier, metavariable]), opt typeParameters,
    parameters, opt result, opt whereClause,
    .alt [.rule .block, .seq [";", .becomes "function_signature_item"]]],
  declared "trait_item" [
    opt "unsafe", "trait", named typeIdentifier, opt typeParameters, opt traitBounds,
    opt whereClause, declarationList],
  nodeOf "impl_item" [
    opt "unsafe", "impl", opt typeParameters,
    .alt [
      .seq [opt "!", .rule .simpleType, "for", .role "type" (.rule .typ)],
      .role "type" (.rule .typ)],
    opt whereClause,
    .alt [declarationList, ";"]],
  declared "type_item" [
    "type", named typeIdentifier, opt typeParameters, opt whereClause, sign "=", .rule .typ,
    opt whereClause, ";"],
  nodeOf "associated_type" [
    "type", named typeIdentifier, opt typeParameters, opt traitBounds, opt whereClause, ";"],
  declared "const_item" [
    "const", named (.alt [identifier, "_"]), ":", .rule .typ,
    opt (.seq [sign "=", .rule (.expression true)]), ";"],
  declared "static_item" [
    "static", opt mutableSpecifier, named identifier, ":", .rule .typ,
    opt (.seq [sign "=", .rule (.expression true)]), ";"],
  declared "use_declaration" ["use", .rule .useClause, ";"],
  declared "extern_crate_declaration" [
    "extern", wordLeaf "crate" "crate", named identifier,
    opt (.seq ["as", .alt [identifier, "_"]]), ";"],
  declared "foreign_mod_item" [
    nodeOf "extern_modifier" ["extern", opt stringLiteral], .alt [declarationList, ";"]],
  declared "union_item" [
    "union", named typeIdentifier, opt typeParameters, opt whereClause, fieldDeclarations]]

/-- The rules of a macro. -/
def macroDefinition : Pattern Rule :=
  let rules : Pattern Rule := sepEndBy ";" (nodeOf "macro_rule" [
    .rule .tokenPatterns, "=>", .rule .tokens])
  nodeOf "macro_definition" [
    "macro_rules", "!", named identifier,
    .alt [braces [rules], .seq [parens [rules], ";"], .seq [brackets [rules], ";"]]]

/-- A declaration. -/
def declaration : Pattern Rule :=
  .alt (namedDeclarations ++ [
    nodeOf "let_declaration" [
      "let", opt mutableSpecifier, .rule .pattern, opt (.seq [":", .rule .typ]),
      opt (.seq [sign "=", .rule (.expression true)]), opt (.seq ["else", .rule .block]), ";"],
    outerAttribute,
    innerAttribute,
    macroDefinition,
    .node "empty_statement" ";",
    nodeOf "expression_statement" [
      nodeOf "macro_invocation" [path, "!", .ahead (.alt ["(", "["]), .rule .tokens], ";"],
    nodeOf "macro_invocation" [path, "!", .ahead "\x7b", .rule .tokens, .absent (sign ". ?")]])

/-- A statement; an expression needs no sign behind it if it is the last one. -/
def statement : Pattern Rule := .alt [
  .rule .declaration,
  .seq [blockLike, .absent (.alt [sign ". ?", "as"]), aroundOf "expression_statement" []],
  .seq [
    .rule (.expression true),
    .alt [aroundOf "expression_statement" [";"], .ahead "\x7d", atEnd]]]

/-- Statements in braces. -/
def block : Pattern Rule :=
  nodeOf "block" [opt (.seq [label, ":"]), braces [.many (.rule .statement)]]

/-! ## Comments -/

/-- The characters up to the end of a comment that may hold comments; `depth` are open. -/
def nested : (depth found : Nat) → List Char → Option Nat
  | 0, found, _ => some found
  | _, _, [] => none
  | depth + 1, found, '*' :: '/' :: rest => nested depth (found + 2) rest
  | depth + 1, found, '/' :: '*' :: rest => nested (depth + 2) (found + 2) rest
  | depth + 1, found, _ :: rest => nested (depth + 1) (found + 1) rest

/-- The mark and the text of documentation, which is for what follows or for what it stands in. -/
def documentation (outer inner : Char) (length : Nat) : List Char → List (String × Nat × Nat)
  | c :: _ =>
    let marked (kind : String) := [(kind, 2, 3), ("doc_comment", 3, length)]
    if c == outer then marked "outer_doc_comment_marker"
    else if c == inner then marked "inner_doc_comment_marker"
    else []
  | [] => []

/-- Documentation on one line ends with the line. -/
def lineDocumentation : Scan := .seq [
  .text "//", .alt [.notBefore (.text "/") (.text "/"), .text "!"], .restOfLine,
  .opt (.text "\n")]

/-- The forms of comments. -/
def comments : List CommentForm := [
  { kind := "line_comment"
    scan := lineDocumentation
    parts := fun text => documentation '/' '!' text.length (text.drop 2) },
  { kind := "line_comment", scan := .seq [.text "//", .restOfLine] },
  { kind := "block_comment"
    scan := fun text => if (Scan.text "/*" text).isSome then nested 1 2 (text.drop 2) else none
    parts := fun text =>
      if "/***".toList.isPrefixOf text || text.length < 5 then []
      else documentation '*' '!' (text.length - 2) (text.drop 2) }]

/-- The grammar of Rust. -/
def grammar : Grammar Rule where
  root := "source_file"
  item := .rule .statement
  rules
    | .statement => statement
    | .declaration => declaration
    | .block => block
    | .expression true => anyExpression
    | .expression false => headExpression
    | .unary true => anyUnary
    | .unary false => headUnary
    | .simpleType => simpleType
    | .typ => typ
    | .pattern => pattern
    | .simplePattern => simplePattern
    | .ifExpression => ifExpression
    | .useClause => useClause
    | .tokens => tokens
    | .tokenPatterns => tokenPatterns
  extras := { blank := .run1 Text.isBlank, comments }

end CodeIndex.Grammar.Rust
