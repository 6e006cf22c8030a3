import CodeIndex.Store.Relational
import CodeIndex.Text.Utf8

/-!
# Databases as files

The content of the file that a database is kept in: its tables as JSON.  The full-text index is not
part of the file; it is made anew from the rows of the chunks.

## Main definitions

* `Database.toOctets` is the content of the file, and `Database.ofOctets?` reads it.  An empty file
  is an empty database.
-/

namespace CodeIndex

open Json (Value Fields)

namespace DocumentRow

/-- The fields of a row in order. -/
def fieldNames : List String :=
  ["store", "path", "document_id", "content_hash", "language", "indexed_at"]

/-- Write a row. -/
def toJson (r : DocumentRow) : Value :=
  .ofFields [("store", .ofString r.store), ("path", .ofString r.path),
    ("document_id", .ofString r.documentId), ("content_hash", .ofString r.contentHash),
    ("language", .ofString r.language), ("indexed_at", .ofInt r.indexedAt)]

/-- Read a row. -/
def ofJson? (value : Value) : Option DocumentRow := do
  let fields ← Fields.ofValue? fieldNames value
  let text (name : String) := fields.required name Value.string?
  return {
    store := ← text "store"
    path := ← text "path"
    documentId := ← text "document_id"
    contentHash := ← text "content_hash"
    language := ← text "language"
    indexedAt := ← fields.required "indexed_at" Value.integer? }

end DocumentRow

namespace ChunkRow

/-- The fields of a row in order. -/
def fieldNames : List String :=
  ["row", "store", "chunk_id", "document_id", "path", "language", "node_type", "start_line",
    "end_line", "content", "symbols"]

/-- Write a row. -/
def toJson (r : ChunkRow) : Value :=
  .ofFields [("row", .ofNat r.row), ("store", .ofString r.store),
    ("chunk_id", .ofString r.chunkId), ("document_id", .ofString r.documentId),
    ("path", .ofString r.path), ("language", .ofString r.language),
    ("node_type", .ofString r.nodeType), ("start_line", .ofNat r.startLine),
    ("end_line", .ofNat r.endLine), ("content", .ofString r.content),
    ("symbols", .ofString r.symbols)]

/-- Read a row. -/
def ofJson? (value : Value) : Option ChunkRow := do
  let fields ← Fields.ofValue? fieldNames value
  let text (name : String) := fields.required name Value.string?
  let count (name : String) := fields.required name Value.natural?
  return {
    row := ← count "row"
    store := ← text "store"
    chunkId := ← text "chunk_id"
    documentId := ← text "document_id"
    path := ← text "path"
    language := ← text "language"
    nodeType := ← text "node_type"
    startLine := ← count "start_line"
    endLine := ← count "end_line"
    content := ← text "content"
    symbols := ← text "symbols" }

end ChunkRow

namespace Database

/-- The fields of a database in order. -/
def fieldNames : List String := ["stores", "documents", "chunks"]

/-- The tables of a database. -/
def toJson (db : Database) : Value :=
  .ofFields [("stores", .ofStrings db.stores),
    ("documents", .array (db.documents.map DocumentRow.toJson)),
    ("chunks", .array (db.chunks.map ChunkRow.toJson))]

/-- The full-text index over some rows. -/
def indexOf (rows : List ChunkRow) : FullText.Index :=
  rows.foldl (fun index r => index.insert r.row r.columns) {}

/-- Read the tables of a database. -/
def ofJson? (value : Value) : Option Database := do
  let fields ← Fields.ofValue? fieldNames value
  let stores ← fields.required "stores" Value.strings?
  let documents ← fields.required "documents" (Value.list? DocumentRow.ofJson?)
  let chunks ← fields.required "chunks" (Value.list? ChunkRow.ofJson?)
  return { stores, documents, chunks, index := indexOf chunks }

/-- The content of the file of a database. -/
def toOctets (db : Database) : List UInt8 := Text.Utf8.encode db.toJson.render

/-- Read the file of a database. -/
def ofOctets? (octets : List UInt8) : Option Database :=
  if octets.isEmpty then some {}
  else ((Text.Utf8.strict? octets).bind Json.parse?).bind ofJson?

end Database

end CodeIndex
