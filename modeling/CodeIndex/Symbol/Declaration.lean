import CodeIndex.Symbol.Pattern
import CodeIndex.Language.Basic
import CodeIndex.Text.WordCharacter

/-!
# Declaration patterns

For each language the patterns that recognise its declarations in plain text, in the order in
which their names are reported.  A language without patterns of its own uses `generic`.  The
patterns are built from a keyword, the blanks after it and the declared name, and often from the
character that has to follow the name.
-/

namespace CodeIndex.Symbol

open CodeIndex.Text (isWordCharacter isBlank)

/-- A pattern is a sequence of items. -/
abbrev Declaration := List Pattern

/-- The given word. -/
def lit (text : String) : Pattern := .literal text.toList

/-- At least one blank. -/
def gap : Pattern := .many 1 isBlank

/-- Any number of blanks. -/
def space : Pattern := .many 0 isBlank

/-- A word, which is not captured. -/
def word : Pattern := .many 1 isWordCharacter

/-- The declared name. -/
def name : Pattern := .capture isWordCharacter

/-- One of the given characters. -/
def anyOf (chars : String) : Pattern := .one chars.toList.contains

/-- One of the given words. -/
def words (alternatives : List String) : Pattern :=
  .oneOf (alternatives.map fun alternative => [lit alternative])

/-- The items, or nothing. -/
def optional (items : List Pattern) : Pattern := .oneOf [items, []]

/-- A keyword and the name behind it. -/
def named (keyword : String) : Declaration := [lit keyword, gap, name]

/-- A keyword, the name, and a parenthesis. -/
def called (keyword : String) : Declaration := named keyword ++ [space, lit "("]

/-- Type parameters in angle brackets, and the blanks behind them. -/
def typeParameters : Pattern :=
  optional [lit "<", .many 1 (· != '>'), lit ">", gap]

/-- A function head that starts with optional modifiers and a result type. -/
def typedFunction (access modifiers : List String) : Declaration :=
  [optional [words access], space, optional [words modifiers], space, word, gap, name, space,
    lit "("]

/-- Words before a name, each followed by blanks. -/
def typeWords : Pattern := .repeated 1 [word, gap]

/-- A parameter list in parentheses. -/
def parameterList : List Pattern := [lit "(", .many 0 (· != ')'), lit ")"]

/-- The patterns for languages that have none of their own. -/
def generic : List Declaration :=
  [[words ["function", "func", "def", "fn"], gap, name, space, lit "("],
    [words ["class", "struct", "interface", "type"], gap, name]]

/-- The patterns of a language. -/
def declarations : Language → List Declaration
  | .rust =>
    [named "fn" ++ [space, anyOf "<("], named "struct", named "enum", named "trait",
      [lit "impl", gap, typeParameters, name], named "mod"]
  | .go =>
    [called "func",
      [lit "func", space, lit "(", .many 1 (· != ')'), lit ")", space, name, space, lit "("],
      named "type" ++ [gap, words ["struct", "interface"]], named "const" ++ [space, lit "="],
      named "var" ++ [gap]]
  | .python =>
    [called "def", named "class", [lit "@", name],
      [name, space, lit "=", space, words ["lambda", "[", "\x7b", "\""]]]
  | .typescript =>
    [[.oneOf [[lit "function"], [lit "async", gap, lit "function"]], gap, name, space, lit "("],
      [words ["class", "interface", "type", "enum"], gap, name],
      [words ["const", "let", "var"], gap, name, space, anyOf "=:"]]
  | .javascript =>
    [[.oneOf [[lit "function"], [lit "async", gap, lit "function"]], gap, name, space, lit "("],
      named "class", [words ["const", "let", "var"], gap, name, space, lit "="]]
  | .java =>
    [typedFunction ["public", "private", "protected"] ["static"], named "class",
      named "interface", named "enum"]
  | .csharp =>
    [typedFunction ["public", "private", "protected", "internal"] ["static", "async"],
      named "class", named "interface", named "struct"]
  | .kotlin =>
    [[lit "fun", gap, typeParameters, name, space, lit "("], named "class", named "interface",
      named "object"]
  | .swift =>
    [named "func" ++ [space, anyOf "(<"], named "class", named "struct", named "protocol",
      named "enum"]
  | .scala =>
    [named "def" ++ [space, anyOf "[("], named "class", named "object", named "trait"]
  | .ruby => [named "def", named "class", named "module"]
  | .php => [called "function", named "class", named "interface", named "trait"]
  | .c =>
    [[typeWords, name, space] ++ parameterList ++ [space, lit "\x7b"], named "struct",
      [lit "typedef", gap, optional [lit "struct", gap], typeWords, name, space, lit ";"],
      named "#define"]
  | .cpp =>
    [[typeWords, name, space] ++ parameterList ++ [space, optional [lit "const"], space,
        lit "\x7b"],
      named "class", named "struct", named "namespace"]
  | _ => generic

end CodeIndex.Symbol
