import CodeIndex.Symbol.Declaration

/-!
# Symbols of a text

`extract` lists the names that a text declares: pattern by pattern, within a pattern from left to
right, each name once and at most `maxSymbols` of them.  Names of one byte and names that are
keywords in some letter case are left out.  The walk stops as soon as the limit is reached.
-/

namespace CodeIndex.Symbol

/-- The greatest number of symbols of a chunk. -/
def maxSymbols : Nat := 100

/-- Words that are no symbols, in lower case. -/
def keywords : List String := [
  "if", "else", "for", "while", "return", "break", "continue", "switch", "case", "default",
  "try", "catch", "finally", "throw", "new", "delete", "this", "self", "true", "false", "null",
  "nil", "none", "public", "private", "protected", "static", "const", "final", "async",
  "await", "yield", "import", "export", "from", "package", "module", "interface", "class",
  "struct", "enum", "func", "function", "def", "fn", "var", "let", "val", "type", "typedef",
  "void", "int", "string", "bool", "float", "and", "or", "not", "in", "is", "as", "with",
  "using", "abstract", "virtual", "override", "extends", "implements"]

/-- Whether a captured name is reported. -/
def isSymbol (name : String) : Bool :=
  2 ≤ name.utf8ByteSize && !keywords.contains (String.ofList (name.toList.map Char.toLower))

/-- Add the reportable names of a list to `found`, until `cap` are found. -/
def collect (cap : Nat) (found : List String) : List String → List String
  | [] => found
  | name :: rest =>
    if isSymbol name && !found.contains name then
      if cap ≤ found.length + 1 then found ++ [name] else collect cap (found ++ [name]) rest
    else collect cap found rest

/-- Add the names that patterns capture in a text to `found`, until `cap` are found. -/
def collectAll (cap : Nat) (text : List Char) (found : List String) :
    List Declaration → List String
  | [] => found
  | pattern :: rest =>
    let found := collect cap found (captures pattern text)
    if cap ≤ found.length then found else collectAll cap text found rest

/-- The names that a text of the given language declares. -/
def extract (text : List Char) (language : Language) : List String :=
  collectAll maxSymbols text [] (declarations language)

end CodeIndex.Symbol
