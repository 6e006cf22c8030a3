import CodeIndex.Grammar.Script.Token

/-!
# The types of scripts

What TypeScript adds to names, parameters and results: types and their parameters.  A member of an
interface is a signature, which ends with a comma, a semicolon or its line.

## Main definitions

* `typ` is a type, `typeMark` a type behind a colon and `typeParameters` a list of parameters.
* `objectTypeAs` is a type that lists members.
-/

namespace CodeIndex.Grammar.Script

open Pattern

/-- The types that the language brings along. -/
def predefinedTypes : List String := [
  "any", "number", "boolean", "string", "symbol", "void", "unknown", "never", "object"]

/-- A type behind a colon. -/
def typeMark : Pattern Rule := nodeOf "type_annotation" [sign ":", .rule .typ]

/-- The types that are put in for parameters. -/
def typeArguments : Pattern Rule := nodeOf "type_arguments" ["<", commaList1 (.rule .typ), ">"]

/-- The parameters that stand for types. -/
def typeParameters : Pattern Rule :=
  nodeOf "type_parameters" ["<", commaList1 (nodeOf "type_parameter" [
    opt "const", named typeIdentifier,
    opt (nodeOf "constraint" ["extends", .rule .typ]),
    opt (nodeOf "default_type" [sign "=", .rule .typ])]), ">"]

/-- The parameters of a function. -/
def formalParameters : Pattern Rule :=
  nodeOf "formal_parameters" [parens [commaList (.rule .parameter)]]

/-- The type of a result. -/
def returnType : Pattern Rule :=
  let predicate := nodeOf "type_predicate" [
    named (.alt [identifier, wordLeaf "this" "this"]), "is", .rule .typ]
  .alt [
    nodeOf "type_predicate_annotation" [sign ":", predicate],
    nodeOf "asserts_annotation" [sign ":", nodeOf "asserts" [
      "asserts", .alt [predicate, identifier, wordLeaf "this" "this"]]],
    typeMark]

/-- What a function is called with and what it gives. -/
def callSignature (typed : Bool) : List (Pattern Rule) :=
  if typed then [opt typeParameters, formalParameters, opt returnType] else [formalParameters]

/-- The name of a property. -/
def propertyName : Pattern Rule := .alt [
  propertyIdentifier, string, leaf "number" numberScan,
  nodeOf "computed_property_name" [brackets [.rule .expression]]]

/-- Who may use a member. -/
def accessibility : Pattern Rule :=
  .node "accessibility_modifier"
    (.alt (["public", "private", "protected"].map modifierWord))

/-- The word for a member that takes the place of an inherited one. -/
def overriding : Pattern Rule := .node "override_modifier" (modifierWord "override")

/-- A key for which there are members. -/
def indexSignature : Pattern Rule :=
  nodeOf "index_signature" [
    opt (.seq [opt (sign "+ -"), modifierWord "readonly"]),
    brackets [.alt [
      .seq [named identifier, sign ":", .rule .typ],
      nodeOf "mapped_type_clause" [
        named typeIdentifier, "in", .rule .typ, opt (.seq ["as", .rule .typ])]]],
    .alt [
      typeMark,
      nodeOf "omitting_type_annotation" ["-?:", .rule .typ],
      nodeOf "opting_type_annotation" [.alt ["?:", "+?:"], .rule .typ]]]

/-- A member with a name. -/
def memberSignature : Pattern Rule :=
  nodeOf "property_signature" [
    opt accessibility, opt (modifierWord "static"), opt overriding, opt (modifierWord "readonly"),
    opt (modifierWord "async"), opt (.alt [modifierWord "get", modifierWord "set", "*"]),
    named propertyName, opt "?",
    .alt [
      .seq (.becomes "method_signature" :: callSignature true),
      opt typeMark]]

/-- A list of members, as a node of some kind. -/
def objectTypeAs (kind : String) : Pattern Rule :=
  let member : Pattern Rule := .alt [
    nodeOf "construct_signature" ["new", opt typeParameters, formalParameters, opt typeMark],
    indexSignature,
    nodeOf "call_signature" (callSignature true),
    memberSignature]
  nodeOf kind [braces [.many (.seq [member, .alt [",", semicolon]])]]

/-- A type without operators. -/
def primaryType : Pattern Rule :=
  let element : Pattern Rule := .alt [
    nodeOf "optional_parameter" [identifier, "?", typeMark],
    nodeOf "required_parameter" [identifier, typeMark],
    nodeOf "rest_type" ["...", .rule .typ],
    .seq [.rule .typ, opt (aroundOf "optional_type" ["?"])]]
  let nested := .seq [
    identifier, .ahead (sign "."),
    .many (aroundOf "nested_identifier" [
      sign ".", propertyIdentifier, .ahead (sign ".")]),
    aroundOf "nested_type_identifier" [sign ".", named typeIdentifier]]
  followed
    (.alt [
      nodeOf "parenthesized_type" [parens [.rule .typ]],
      leaf "predefined_type" (.alt (predefinedTypes.map Scan.word)),
      nodeOf "literal_type" [.alt [
        nodeOf "unary_expression" [sign "- +", leaf "number" numberScan],
        leaf "number" numberScan, string, wordLeaf "true" "true", wordLeaf "false" "false",
        wordLeaf "null" "null", wordLeaf "undefined" "undefined"]],
      wordLeaf "this_type" "this",
      objectTypeAs "object_type",
      nodeOf "tuple_type" [brackets [commaList element]],
      nodeOf "index_type_query" ["keyof", .rule .primaryType],
      nodeOf "type_query" ["typeof", .alt [
        followed identifier [aroundOf "member_expression" [sign ".", propertyIdentifier]],
        wordLeaf "this" "this"]],
      templateOf "template_literal_type" "template_type" (.rule .typ),
      .seq [
        .alt [nested, typeIdentifier],
        opt (.around "generic_type" (some "name") typeArguments)]]) [
    .seq [sameLine, aroundOf "array_type" ["[", "]"]],
    .seq [sameLine, aroundOf "lookup_type" [brackets [.rule .typ]]]]

/-- A type. -/
def typ : Pattern Rule :=
  let intersection := followed (.alt [
      nodeOf "intersection_type" [sign "&", .rule .primaryType], .rule .primaryType]) [
    aroundOf "intersection_type" [sign "&", .rule .primaryType]]
  let union := followed (.alt [nodeOf "union_type" [sign "|", intersection], intersection]) [
    aroundOf "union_type" [sign "|", intersection]]
  .alt [
    nodeOf "function_type" [opt typeParameters, formalParameters, "=>", .rule .typ],
    nodeOf "constructor_type" [
      opt "abstract", "new", opt typeParameters, formalParameters, "=>", .rule .typ],
    nodeOf "readonly_type" ["readonly", .rule .typ],
    nodeOf "infer_type" ["infer", typeIdentifier],
    .seq [union, opt (aroundOf "conditional_type" [
      "extends", union, "?", .rule .typ, sign ":", .rule .typ])]]

end CodeIndex.Grammar.Script
