import CodeIndex.Chunk.Basic
import CodeIndex.Json.Codec

/-!
# Chunks as JSON

A chunk is an object with its six fields in order; the language is written by its identifier.
-/

namespace CodeIndex

open Json (Value Fields)

/-- Write a language. -/
def Language.toJson (language : Language) : Value := .ofString language.id

/-- Read a language. -/
def Language.ofJson? (value : Value) : Option Language := value.variant?.bind Language.ofId?

namespace Chunk

/-- The fields of the record in order. -/
def fieldNames : List String :=
  ["content", "start_line", "end_line", "language", "node_type", "symbols"]

/-- Write a chunk. -/
def toJson (c : Chunk) : Value :=
  .ofFields [("content", .ofString c.content), ("start_line", .ofNat c.startLine),
    ("end_line", .ofNat c.endLine), ("language", c.language.toJson),
    ("node_type", .ofString c.nodeType), ("symbols", .ofStrings c.symbols)]

/-- Read a chunk. -/
def ofJson? (value : Value) : Option Chunk := do
  let fields ← Fields.ofValue? fieldNames value
  let content ← fields.required "content" Value.string?
  let startLine ← fields.required "start_line" Value.natural?
  let endLine ← fields.required "end_line" Value.natural?
  let language ← fields.required "language" Language.ofJson?
  let nodeType ← fields.required "node_type" Value.string?
  let symbols ← fields.required "symbols" Value.strings?
  return { content, startLine, endLine, language, nodeType, symbols }

end Chunk

end CodeIndex
