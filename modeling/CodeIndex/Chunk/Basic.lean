import CodeIndex.Language.Basic

/-!
# Chunks

A chunk is a piece of a file that is stored and found as a unit: its text, the lines it covers,
its language, the kind of syntax node that it was cut out at, and the names that it declares.  A
chunk that was cut by line counts has an empty kind.
-/

namespace CodeIndex

/-- A piece of a file.  Lines are counted from one and include the last. -/
structure Chunk where
  content : String
  startLine : Nat
  endLine : Nat
  language : Language
  nodeType : String
  symbols : List String
deriving DecidableEq, Repr

namespace Chunk

/-- The greatest number of symbols in the header of the text that is embedded. -/
def headerSymbolLimit : Nat := 12

/-- The text that is embedded for a chunk of the given file: a header that names the path, the
language, the kind and the first symbols, and the content. -/
def contextualized (path : String) (chunk : Chunk) : String :=
  let kind := if chunk.nodeType.isEmpty then "" else "# Kind: " ++ chunk.nodeType ++ "\n"
  let symbols :=
    if chunk.symbols.isEmpty then ""
    else "# Symbols: " ++ ", ".intercalate (chunk.symbols.take headerSymbolLimit) ++ "\n"
  "# " ++ path ++ "\n# Language: " ++ chunk.language.id ++ "\n" ++ kind ++ symbols ++ chunk.content

end Chunk

end CodeIndex
