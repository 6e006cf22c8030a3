import CodeIndex.Json.Codec
import CodeIndex.Store.Record

/-!
# Records of a store as JSON

For each record the names of its fields, how it is written, and how it is read.  The vector of a
chunk is written only if there is one; the chunk list of a document, the symbols and the vector of
a chunk may be missing when a record is read.
-/

namespace CodeIndex

open Json (Value Fields)

namespace DocumentRecord

/-- The fields of the record in order. -/
def fieldNames : List String :=
  ["document_id", "path", "content_hash", "language", "indexed_at", "chunk_ids"]

/-- Write a record. -/
def toJson (d : DocumentRecord) : Value :=
  .ofFields [("document_id", .ofString d.documentId), ("path", .ofString d.path),
    ("content_hash", .ofString d.contentHash), ("language", .ofString d.language),
    ("indexed_at", .ofInt d.indexedAt), ("chunk_ids", .ofStrings d.chunkIds)]

/-- Read a record. -/
def ofJson? (value : Value) : Option DocumentRecord := do
  let fields ← Fields.ofValue? fieldNames value
  let documentId ← fields.required "document_id" Value.string?
  let path ← fields.required "path" Value.string?
  let contentHash ← fields.required "content_hash" Value.string?
  let language ← fields.required "language" Value.string?
  let indexedAt ← fields.required "indexed_at" Value.integer?
  let chunkIds ← fields.withDefault "chunk_ids" [] Value.strings?
  return { documentId, path, contentHash, language, indexedAt, chunkIds }

end DocumentRecord

namespace ChunkRecord

/-- The fields of the record in order. -/
def fieldNames : List String :=
  ["chunk_id", "document_id", "path", "language", "node_type", "start_line", "end_line", "content",
    "symbols", "vector"]

/-- Write a record. -/
def toJson (c : ChunkRecord) : Value :=
  .ofFields ([("chunk_id", .ofString c.chunkId), ("document_id", .ofString c.documentId),
    ("path", .ofString c.path), ("language", .ofString c.language),
    ("node_type", .ofString c.nodeType), ("start_line", .ofNat c.startLine),
    ("end_line", .ofNat c.endLine), ("content", .ofString c.content),
    ("symbols", .ofStrings c.symbols)] ++
    match c.vector with
    | none => []
    | some vector => [("vector", .array (vector.map Value.ofFloat32))])

/-- Read a record. -/
def ofJson? (value : Value) : Option ChunkRecord := do
  let fields ← Fields.ofValue? fieldNames value
  let chunkId ← fields.required "chunk_id" Value.string?
  let documentId ← fields.required "document_id" Value.string?
  let path ← fields.required "path" Value.string?
  let language ← fields.required "language" Value.string?
  let nodeType ← fields.required "node_type" Value.string?
  let startLine ← fields.required "start_line" Value.natural?
  let endLine ← fields.required "end_line" Value.natural?
  let content ← fields.required "content" Value.string?
  let symbols ← fields.withDefault "symbols" [] Value.strings?
  let vector ← fields.withDefault "vector" none
    (Value.optional? (Value.list? Value.float32?))
  return ⟨chunkId, documentId, path, language, nodeType, startLine, endLine, content, symbols,
    vector⟩

end ChunkRecord

namespace StoreStats

/-- The fields of the record in order. -/
def fieldNames : List String := ["store", "documents", "chunks", "last_indexed_at"]

/-- Write a record. -/
def toJson (s : StoreStats) : Value :=
  .ofFields [("store", .ofString s.store), ("documents", .ofNat s.documents),
    ("chunks", .ofNat s.chunks),
    ("last_indexed_at", match s.lastIndexedAt with
      | none => .null
      | some time => .ofInt time)]

/-- Read a record. -/
def ofJson? (value : Value) : Option StoreStats := do
  let fields ← Fields.ofValue? fieldNames value
  let store ← fields.required "store" Value.string?
  let documents ← fields.required "documents" Value.natural?
  let chunks ← fields.required "chunks" Value.natural?
  let lastIndexedAt ← fields.optional "last_indexed_at" Value.integer?
  return { store, documents, chunks, lastIndexedAt }

end StoreStats

namespace RemovedDocuments

/-- The fields of the record in order. -/
def fieldNames : List String := ["paths", "chunk_ids"]

/-- Write a record. -/
def toJson (r : RemovedDocuments) : Value :=
  .ofFields [("paths", .ofStrings r.paths), ("chunk_ids", .ofStrings r.chunkIds)]

/-- Read a record. -/
def ofJson? (value : Value) : Option RemovedDocuments := do
  let fields ← Fields.ofValue? fieldNames value
  let paths ← fields.required "paths" Value.strings?
  let chunkIds ← fields.required "chunk_ids" Value.strings?
  return { paths, chunkIds }

end RemovedDocuments

end CodeIndex
