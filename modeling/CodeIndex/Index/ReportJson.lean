import CodeIndex.Index.Report
import CodeIndex.Json.Codec

/-!
# Reports as JSON

For each report the names of its fields, how it is written, and how it is read.  A file outcome is
written with an error only if it has one, and a missing error is none.
-/

namespace CodeIndex

open Json (Value Fields)

namespace FileStatus

/-- Write a status. -/
def toJson (status : FileStatus) : Value := .ofString status.name

/-- Read a status. -/
def ofJson? (value : Value) : Option FileStatus := value.variant?.bind ofName?

end FileStatus

namespace FileOutcome

/-- The fields of the record in order. -/
def fieldNames : List String := ["path", "document_id", "status", "chunks", "error"]

/-- Write an outcome. -/
def toJson (o : FileOutcome) : Value :=
  .ofFields ([("path", .ofString o.path), ("document_id", .ofString o.documentId),
    ("status", o.status.toJson), ("chunks", .ofNat o.chunks)] ++
    match o.error with
    | none => []
    | some error => [("error", .ofString error)])

/-- Read an outcome. -/
def ofJson? (value : Value) : Option FileOutcome := do
  let fields ← Fields.ofValue? fieldNames value
  let path ← fields.required "path" Value.string?
  let documentId ← fields.required "document_id" Value.string?
  let status ← fields.required "status" FileStatus.ofJson?
  let chunks ← fields.required "chunks" Value.natural?
  let error ← fields.withDefault "error" none (Value.optional? Value.string?)
  return { path, documentId, status, chunks, error }

end FileOutcome

namespace IndexReport

/-- The fields of the record in order. -/
def fieldNames : List String :=
  ["store", "indexed", "skipped", "failed", "chunks_total", "duration_ms", "files"]

/-- Write a report. -/
def toJson (r : IndexReport) : Value :=
  .ofFields [("store", .ofString r.store), ("indexed", .ofNat r.indexed),
    ("skipped", .ofNat r.skipped), ("failed", .ofNat r.failed),
    ("chunks_total", .ofNat r.chunksTotal), ("duration_ms", .ofNat r.durationMs),
    ("files", .array (r.files.map FileOutcome.toJson))]

/-- Read a report. -/
def ofJson? (value : Value) : Option IndexReport := do
  let fields ← Fields.ofValue? fieldNames value
  let store ← fields.required "store" Value.string?
  let indexed ← fields.required "indexed" Value.natural?
  let skipped ← fields.required "skipped" Value.natural?
  let failed ← fields.required "failed" Value.natural?
  let chunksTotal ← fields.required "chunks_total" Value.natural?
  let durationMs ← fields.required "duration_ms" Value.natural?
  let files ← fields.required "files" (Value.list? FileOutcome.ofJson?)
  return { store, indexed, skipped, failed, chunksTotal, durationMs, files }

end IndexReport

namespace DeleteReport

/-- The fields of the record in order. -/
def fieldNames : List String := ["documents_removed", "chunks_removed", "paths"]

/-- Write a report. -/
def toJson (r : DeleteReport) : Value :=
  .ofFields [("documents_removed", .ofNat r.documentsRemoved),
    ("chunks_removed", .ofNat r.chunksRemoved), ("paths", .ofStrings r.paths)]

/-- Read a report. -/
def ofJson? (value : Value) : Option DeleteReport := do
  let fields ← Fields.ofValue? fieldNames value
  let documentsRemoved ← fields.required "documents_removed" Value.natural?
  let chunksRemoved ← fields.required "chunks_removed" Value.natural?
  let paths ← fields.required "paths" Value.strings?
  return { documentsRemoved, chunksRemoved, paths }

end DeleteReport

namespace SyncReport

/-- The fields of the record in order. -/
def fieldNames : List String := ["removed", "chunks_removed"]

/-- Write a report. -/
def toJson (r : SyncReport) : Value :=
  .ofFields [("removed", .ofStrings r.removed), ("chunks_removed", .ofNat r.chunksRemoved)]

/-- Read a report. -/
def ofJson? (value : Value) : Option SyncReport := do
  let fields ← Fields.ofValue? fieldNames value
  let removed ← fields.required "removed" Value.strings?
  let chunksRemoved ← fields.required "chunks_removed" Value.natural?
  return { removed, chunksRemoved }

end SyncReport

end CodeIndex
