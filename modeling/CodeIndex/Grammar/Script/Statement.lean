import CodeIndex.Grammar.Machine
import CodeIndex.Grammar.Script.Expression

/-!
# The grammars of JavaScript and TypeScript

A source is a sequence of statements.  `typed` says whether types may be written, which is what the
two languages differ in.

## Main definitions

* `declaration` and `statement` are the kinds of statements.
* `javaScript` and `typeScript` are the grammars.
-/

namespace CodeIndex.Grammar.Script

open Pattern

variable (typed : Bool)

/-! ## Declarations -/

/-- The variables that a declaration introduces. -/
def declarators : Pattern Rule :=
  sepBy1 "," (nodeOf "variable_declarator" [
    named (.rule .binding), ifTyped typed [opt (sign "!"), typeMark], opt initializer])

/-- Variables that one block sees. -/
def lexicalDeclaration : Pattern Rule :=
  nodeOf "lexical_declaration" [.alt ["let", "const"], declarators typed, semicolon]

/-- Variables that a whole function sees. -/
def variableDeclaration : Pattern Rule :=
  nodeOf "variable_declaration" ["var", declarators typed, semicolon]

/-- The parts of a function before its body, and the body if there is one. -/
def functionDeclaration : Pattern Rule :=
  nodeOf "function_declaration" ([
    opt (.seq ["async", sameLine]), "function",
    opt (.seq ["*", .becomes "generator_function_declaration"]),
    named identifier] ++ callSignature typed ++ [
    if typed then .alt [statementBlock, .seq [.becomes "function_signature", semicolon]]
    else statementBlock])

/-- A class that has a name. -/
def classDeclaration : Pattern Rule :=
  nodeOf "class_declaration" [
    .many decorator,
    ifTyped typed ["abstract", .becomes "abstract_class_declaration"],
    "class", className typed, classTail typed]

/-- A name with the names of what it is found in. -/
def nestedName : Pattern Rule :=
  followed identifier [aroundOf "nested_identifier" [sign ".", propertyIdentifier]]

/-- The values that a type counts up. -/
def enumDeclaration : Pattern Rule :=
  nodeOf "enum_declaration" [
    opt "const", "enum", named identifier,
    nodeOf "enum_body" [braces [commaList (.alt [
      nodeOf "enum_assignment" [named propertyName, initializer], named propertyName])]]]

/-- The declarations that only typed sources hold. -/
def typedDeclarations : List (Pattern Rule) :=
  let module (kind : String) (words : Pattern Rule) (name : Pattern Rule) : Pattern Rule :=
    nodeOf kind [words, named name, opt statementBlock]
  [
    nodeOf "interface_declaration" [
      "interface", named typeIdentifier, opt typeParameters,
      opt (nodeOf "extends_type_clause" ["extends", sepBy1 "," (.rule .typ)]),
      objectTypeAs "interface_body"],
    nodeOf "type_alias_declaration" [
      "type", named typeIdentifier, opt typeParameters, sign "=", .rule .typ, semicolon],
    enumDeclaration,
    nodeOf "ambient_declaration" ["declare", .alt [
      .seq ["global", statementBlock], .rule .declaration]],
    .seq [module "module" "module" (.alt [string, nestedName]), opt ";"],
    .seq [
      module "internal_module" "namespace" nestedName,
      aroundOf "expression_statement" [opt ";"]],
    nodeOf "import_alias" ["import", identifier, sign "=", nestedName, semicolon]]

/-- A declaration. -/
def declaration : Pattern Rule :=
  .alt ([
    functionDeclaration typed, classDeclaration typed, lexicalDeclaration typed,
    variableDeclaration typed] ++
    (if typed then typedDeclarations else []))

/-! ## Modules -/

/-- Where something comes from. -/
def source : Pattern Rule := .seq ["from", string]

/-- A name in another module. -/
def exportedName : Pattern Rule := .alt [identifier, string, anyName "identifier"]

/-- What is brought in from another module. -/
def importStatement : Pattern Rule :=
  let specifier := nodeOf "import_specifier" [
    ifTyped typed [.alt ["type", "typeof"], .absent (.alt [",", "\x7d", "as"])],
    named exportedName, opt (.seq ["as", identifier])]
  let several : Pattern Rule := .alt [
    nodeOf "namespace_import" ["*", "as", identifier],
    nodeOf "named_imports" [braces [commaList specifier]]]
  nodeOf "import_statement" [
    "import",
    ifTyped typed [.alt ["type", "typeof"], .absent (.alt ["from", ","])],
    .alt [
      .seq [
        .node "import_clause" (.alt [several, .seq [identifier, opt (.seq [",", several])]]),
        source],
      string],
    semicolon]

/-- What other modules can bring in. -/
def exportStatement : Pattern Rule :=
  let clause := nodeOf "export_clause" [braces [commaList (nodeOf "export_specifier" [
    ifTyped typed [.alt ["type", "typeof"], .absent (.alt [",", "\x7d", "as"])],
    named exportedName, opt (.seq ["as", exportedName])])]]
  nodeOf "export_statement" [
    .many decorator,
    "export",
    .alt [
      .seq ["*", source, semicolon],
      .seq [nodeOf "namespace_export" ["*", "as", exportedName], source, semicolon],
      .seq [ifTyped typed ["type"], clause, opt source, semicolon],
      .seq ["default", .alt [
        functionDeclaration typed, classDeclaration typed,
        if typed then .alt (typedDeclarations.take 1) else .alt [],
        .seq [.rule .expression, semicolon]]],
      if typed then .seq [sign "=", .rule .expression, semicolon] else .alt [],
      if typed then .seq ["as", "namespace", identifier, semicolon] else .alt [],
      .rule .declaration]]

/-! ## Statements -/

/-- What a loop counts with. -/
def forStatement : Pattern Rule :=
  nodeOf "for_statement" [
    "for",
    parens [
      .alt [
        lexicalDeclaration typed, variableDeclaration typed, .seq [expressions, ";"],
        .node "empty_statement" ";"],
      .alt [.seq [expressions, ";"], .node "empty_statement" ";"],
      opt expressions],
    .rule .statement]

/-- A loop over the parts of a value. -/
def forInStatement : Pattern Rule :=
  nodeOf "for_in_statement" [
    "for", opt "await",
    parens [
      .alt [
        .seq [.alt ["let", "const", "var"], .rule .binding],
        destructuring,
        .rule .unary],
      .alt ["in", "of"], expressions],
    .rule .statement]

/-- The cases of a choice. -/
def switchStatement : Pattern Rule :=
  nodeOf "switch_statement" [
    "switch", parenthesized,
    nodeOf "switch_body" [braces [.many (.alt [
      nodeOf "switch_case" ["case", expressions, sign ":", .many (.rule .statement)],
      nodeOf "switch_default" ["default", sign ":", .many (.rule .statement)]])]]]

/-- A block with what is done if it fails. -/
def tryStatement : Pattern Rule :=
  nodeOf "try_statement" [
    "try", statementBlock,
    opt (nodeOf "catch_clause" [
      "catch", opt (parens [.rule .binding, ifTyped typed [typeMark]]), statementBlock]),
    opt (nodeOf "finally_clause" ["finally", statementBlock])]

/-- A statement that leaves a loop or a block. -/
def jump (kind word : String) : Pattern Rule :=
  nodeOf kind [word, opt (.seq [sameLine, nameOf "statement_identifier"]), semicolon]

/-- A statement. -/
def statement : Pattern Rule := .alt [
  exportStatement typed,
  importStatement typed,
  .rule .declaration,
  statementBlock,
  nodeOf "if_statement" [
    "if", parenthesized, .rule .statement,
    opt (nodeOf "else_clause" ["else", .rule .statement])],
  switchStatement,
  forInStatement,
  forStatement typed,
  nodeOf "while_statement" ["while", parenthesized, .rule .statement],
  nodeOf "do_statement" ["do", .rule .statement, "while", parenthesized, opt ";"],
  tryStatement typed,
  nodeOf "with_statement" ["with", parenthesized, .rule .statement],
  jump "break_statement" "break",
  jump "continue_statement" "continue",
  nodeOf "debugger_statement" ["debugger", semicolon],
  nodeOf "return_statement" [
    "return", opt (.seq [sameLine, .absent (.alt [";", "\x7d"]), expressions]), semicolon],
  nodeOf "throw_statement" ["throw", expressions, semicolon],
  .node "empty_statement" ";",
  nodeOf "labeled_statement" [nameOf "statement_identifier", sign ":", .rule .statement],
  nodeOf "expression_statement" [expressions, semicolon]]

/-! ## Grammars -/

/-- The grammar of JavaScript. -/
def javaScript : Grammar Rule where
  root := "program"
  item := .rule .statement
  rules
    | .statement => statement false
    | .declaration => declaration false
    | .expression => expression false
    | .unary => unary false
    | .binding => binding
    | .typ => typ
    | .primaryType => primaryType
    | .parameter => parameter false
  extras := extras

/-- The grammar of TypeScript. -/
def typeScript : Grammar Rule where
  root := "program"
  item := .rule .statement
  rules
    | .statement => statement true
    | .declaration => declaration true
    | .expression => expression true
    | .unary => unary true
    | .binding => binding
    | .typ => typ
    | .primaryType => primaryType
    | .parameter => parameter true
  extras := extras

end CodeIndex.Grammar.Script
