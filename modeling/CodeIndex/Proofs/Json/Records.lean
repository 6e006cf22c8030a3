import CodeIndex.Chunk.ChunkJson
import CodeIndex.Index.ReportJson
import CodeIndex.Proofs.Json.Fields
import CodeIndex.Proofs.Store.WrittenChunks

/-!
# Records survive JSON

Every record that is handed out or taken in as JSON is read back from its compact text: what the
writer leaves out is what the reader fills in, and each field is read the way it was written.  The
numbers of a record have the values of their types, which is all that is asked of them; chunks are
written without a vector.  The lists of symbols that a database keeps as JSON are read back as well,
so a chunk is fetched with the symbols that it was written with.

## Main definitions

* An `InRange` for each record with numbers says that they have the values of their types.

## Main results

* An `ofJson?_toJson` for each record, from the lemmas about its fields.
* `records_survive_json`.
-/

namespace CodeIndex

open Json (Fields maxUnsigned Survives)
open Json.Value (written_ofFields)
open Json.Fields (required withDefault get? ofValue?_ofFields)

/-! ## Records of a store -/

namespace DocumentRecord

/-- The time has 64 bits. -/
structure InRange (d : DocumentRecord) : Prop where
  indexedAt : Json.InRange d.indexedAt

theorem written_toJson (d : DocumentRecord) : d.toJson.Written := written_ofFields (by simp)

theorem ofJson?_toJson {d : DocumentRecord} (h : d.InRange) : ofJson? d.toJson = some d := by
  obtain ⟨htime⟩ := h
  rw [toJson, ofJson?, ofValue?_ofFields (by simp [fieldNames]) (by simp)]
  simp [required, withDefault, get?, htime]

end DocumentRecord

namespace ChunkRecord

/-- The line numbers have 64 bits. -/
structure InRange (c : ChunkRecord) : Prop where
  startLine : c.startLine ≤ maxUnsigned
  endLine : c.endLine ≤ maxUnsigned

variable {c : ChunkRecord}

theorem written_toJson (h : c.vector = none) : c.toJson.Written := by
  rw [toJson, h]
  exact written_ofFields (by simp)

theorem ofJson?_toJson (h : c.InRange) (hvector : c.vector = none) :
    ofJson? c.toJson = some c := by
  obtain ⟨hstart, hend⟩ := h
  cases c
  obtain rfl := hvector
  rw [toJson, ofJson?, ofValue?_ofFields (by simp [fieldNames]) (by simp)]
  simp [required, withDefault, get?, hstart, hend]

end ChunkRecord

namespace StoreStats

/-- The counters and the time have 64 bits. -/
structure InRange (s : StoreStats) : Prop where
  documents : s.documents ≤ maxUnsigned
  chunks : s.chunks ≤ maxUnsigned
  lastIndexedAt : ∀ time ∈ s.lastIndexedAt, Json.InRange time

variable {s : StoreStats}

theorem written_toJson (s : StoreStats) : s.toJson.Written := by
  rw [toJson]
  cases s.lastIndexedAt <;> exact written_ofFields (by simp)

theorem ofJson?_toJson (h : s.InRange) : ofJson? s.toJson = some s := by
  obtain ⟨hdocuments, hchunks, htime⟩ := h
  rw [toJson, ofJson?, ofValue?_ofFields (by simp [fieldNames]) (by simp)]
  obtain ⟨store, documents, chunks, lastIndexedAt⟩ := s
  cases lastIndexedAt with
  | none => simp [required, Fields.optional, get?, hdocuments, hchunks]
  | some time => simp [required, Fields.optional, get?, hdocuments, hchunks, htime time rfl]

end StoreStats

namespace RemovedDocuments

theorem written_toJson (r : RemovedDocuments) : r.toJson.Written := written_ofFields (by simp)

theorem ofJson?_toJson (r : RemovedDocuments) : ofJson? r.toJson = some r := by
  rw [toJson, ofJson?, ofValue?_ofFields (by simp [fieldNames]) (by simp)]
  simp [required, get?]

end RemovedDocuments

/-! ## Chunks and reports -/

namespace Chunk

/-- The line numbers have 64 bits. -/
structure InRange (c : Chunk) : Prop where
  startLine : c.startLine ≤ maxUnsigned
  endLine : c.endLine ≤ maxUnsigned

theorem written_toJson (c : Chunk) : c.toJson.Written :=
  written_ofFields (by simp [Language.toJson])

theorem ofJson?_toJson {c : Chunk} (h : c.InRange) : ofJson? c.toJson = some c := by
  obtain ⟨hstart, hend⟩ := h
  rw [toJson, ofJson?, ofValue?_ofFields (by simp [fieldNames]) (by simp)]
  simp [required, get?, Language.toJson, Language.ofJson?, Language.ofId?_id, hstart, hend]

end Chunk

namespace FileOutcome

/-- The number of chunks has 64 bits. -/
structure InRange (o : FileOutcome) : Prop where
  chunks : o.chunks ≤ maxUnsigned

theorem written_toJson (o : FileOutcome) : o.toJson.Written := by
  rw [toJson]
  cases o.error <;> exact written_ofFields (by simp [FileStatus.toJson])

theorem ofJson?_toJson {o : FileOutcome} (h : o.InRange) : ofJson? o.toJson = some o := by
  obtain ⟨path, documentId, status, chunks, error⟩ := o
  have hchunks : chunks ≤ maxUnsigned := h.chunks
  have hstatus : FileStatus.ofJson? status.toJson = some status := by
    rw [FileStatus.toJson, FileStatus.ofJson?, Json.Value.variant?_ofString]
    cases status <;> rfl
  cases error <;>
    rw [toJson, ofJson?, ofValue?_ofFields (by simp [fieldNames]) (by simp)] <;>
    simp [required, withDefault, get?, hchunks, hstatus]

end FileOutcome

namespace IndexReport

/-- The counters have 64 bits, in the outcomes too. -/
structure InRange (r : IndexReport) : Prop where
  indexed : r.indexed ≤ maxUnsigned
  skipped : r.skipped ≤ maxUnsigned
  failed : r.failed ≤ maxUnsigned
  chunksTotal : r.chunksTotal ≤ maxUnsigned
  durationMs : r.durationMs ≤ maxUnsigned
  files : ∀ file ∈ r.files, file.InRange

theorem written_toJson (r : IndexReport) : r.toJson.Written := by
  have hfiles : (Json.Value.array (r.files.map FileOutcome.toJson)).Written :=
    .array (List.forall_mem_map.2 fun file _ => file.written_toJson)
  exact written_ofFields (by simp [hfiles])

theorem ofJson?_toJson {r : IndexReport} (h : r.InRange) : ofJson? r.toJson = some r := by
  obtain ⟨hindexed, hskipped, hfailed, htotal, hduration, hfiles⟩ := h
  have hread := Json.Value.list?_map fun file hfile =>
    FileOutcome.ofJson?_toJson (hfiles file hfile)
  rw [toJson, ofJson?, ofValue?_ofFields (by simp [fieldNames]) (by simp)]
  simp [required, get?, hindexed, hskipped, hfailed, htotal, hduration, hread]

end IndexReport

namespace DeleteReport

/-- The counters have 64 bits. -/
structure InRange (r : DeleteReport) : Prop where
  documentsRemoved : r.documentsRemoved ≤ maxUnsigned
  chunksRemoved : r.chunksRemoved ≤ maxUnsigned

theorem written_toJson (r : DeleteReport) : r.toJson.Written := written_ofFields (by simp)

theorem ofJson?_toJson {r : DeleteReport} (h : r.InRange) : ofJson? r.toJson = some r := by
  obtain ⟨hdocuments, hchunks⟩ := h
  rw [toJson, ofJson?, ofValue?_ofFields (by simp [fieldNames]) (by simp)]
  simp [required, get?, hdocuments, hchunks]

end DeleteReport

namespace SyncReport

/-- The number of chunks has 64 bits. -/
structure InRange (r : SyncReport) : Prop where
  chunksRemoved : r.chunksRemoved ≤ maxUnsigned

theorem written_toJson (r : SyncReport) : r.toJson.Written := written_ofFields (by simp)

theorem ofJson?_toJson {r : SyncReport} (h : r.InRange) : ofJson? r.toJson = some r := by
  obtain ⟨hchunks⟩ := h
  rw [toJson, ofJson?, ofValue?_ofFields (by simp [fieldNames]) (by simp)]
  simp [required, get?, hchunks]

end SyncReport

/-! ## All records -/

/-- Every record whose numbers have the values of their types is read back from its compact text.
A batch of chunks whose line numbers fit is written into every store of a database, and each chunk
of a batch that was written is fetched with the symbols that it had, unless a later chunk has the
same identifier. -/
theorem records_survive_json :
    (∀ d : DocumentRecord, d.InRange → Survives DocumentRecord.toJson DocumentRecord.ofJson? d) ∧
    (∀ c : ChunkRecord, c.InRange → c.vector = none →
      Survives ChunkRecord.toJson ChunkRecord.ofJson? c) ∧
    (∀ s : StoreStats, s.InRange → Survives StoreStats.toJson StoreStats.ofJson? s) ∧
    (∀ r : RemovedDocuments, Survives RemovedDocuments.toJson RemovedDocuments.ofJson? r) ∧
    (∀ c : Chunk, c.InRange → Survives Chunk.toJson Chunk.ofJson? c) ∧
    (∀ o : FileOutcome, o.InRange → Survives FileOutcome.toJson FileOutcome.ofJson? o) ∧
    (∀ r : IndexReport, r.InRange → Survives IndexReport.toJson IndexReport.ofJson? r) ∧
    (∀ r : DeleteReport, r.InRange → Survives DeleteReport.toJson DeleteReport.ofJson? r) ∧
    (∀ r : SyncReport, r.InRange → Survives SyncReport.toJson SyncReport.ofJson? r) ∧
    ∀ (earlier : List Request) (store : String),
      (∀ chunks : List ChunkRecord,
        (RecordStore.hasStore store (after earlier ({} : Database))).1 = .ok true →
        (∀ chunk ∈ chunks, chunk.startLine ≤ maxColumnValue ∧ chunk.endLine ≤ maxColumnValue) →
        (RecordStore.putChunks store chunks (after earlier ({} : Database))).1 = .ok ()) ∧
      ∀ (before behind : List ChunkRecord) (chunk : ChunkRecord) (written : Database),
        RecordStore.putChunks store (before ++ chunk :: behind) (after earlier ({} : Database)) =
          (.ok (), written) →
        chunk.chunkId ∉ behind.map (·.chunkId) → written.Returns store chunk := by
  refine ⟨fun d h => .of_written d.written_toJson (DocumentRecord.ofJson?_toJson h),
    fun c h hvector => .of_written (ChunkRecord.written_toJson hvector)
      (ChunkRecord.ofJson?_toJson h hvector),
    fun s h => .of_written s.written_toJson (StoreStats.ofJson?_toJson h),
    fun r => .of_written r.written_toJson r.ofJson?_toJson,
    fun c h => .of_written c.written_toJson (Chunk.ofJson?_toJson h),
    fun o h => .of_written o.written_toJson (FileOutcome.ofJson?_toJson h),
    fun r h => .of_written r.written_toJson (IndexReport.ofJson?_toJson h),
    fun r h => .of_written r.written_toJson (DeleteReport.ofJson?_toJson h),
    fun r h => .of_written r.written_toJson (SyncReport.ofJson?_toJson h), ?_⟩
  intro earlier store
  have hvalid := Database.valid_after_empty earlier
  exact ⟨fun chunks hstore hfits => hvalid.putChunks_eq_ok hstore hfits,
    fun before behind chunk written hwrite hlast => hvalid.returns_of_putChunks hlast hwrite⟩

/-- Quotes, a backslash, control characters, and characters of two, three and four octets. -/
def awkwardText : String := "\"\\/\x00\x1f\n é\u2028😀"

/-- A chunk with such texts, and with the greatest line number that fits. -/
def awkwardChunk : ChunkRecord where
  chunkId := awkwardText
  documentId := ""
  path := awkwardText
  language := "rust"
  nodeType := ""
  startLine := 0
  endLine := maxColumnValue
  content := awkwardText
  symbols := ["", awkwardText]

/-- A file that failed with such a text. -/
def awkwardOutcome : FileOutcome := ⟨awkwardText, "", .failed, 0, some awkwardText⟩

theorem records_survive_json_awkward :
    Survives DocumentRecord.toJson DocumentRecord.ofJson?
      ⟨awkwardText, "", awkwardText, "rust", -0x8000000000000000, [awkwardText, ""]⟩ ∧
    Survives ChunkRecord.toJson ChunkRecord.ofJson? awkwardChunk ∧
    Survives StoreStats.toJson StoreStats.ofJson? ⟨awkwardText, maxUnsigned, 0, none⟩ ∧
    Survives RemovedDocuments.toJson RemovedDocuments.ofJson? ⟨[awkwardText], []⟩ ∧
    Survives Chunk.toJson Chunk.ofJson? ⟨awkwardText, 0, maxUnsigned, .rust, "", [awkwardText]⟩ ∧
    Survives FileOutcome.toJson FileOutcome.ofJson? awkwardOutcome ∧
    Survives IndexReport.toJson IndexReport.ofJson?
      { store := awkwardText, failed := 1, durationMs := maxUnsigned, files := [awkwardOutcome] } ∧
    Survives DeleteReport.toJson DeleteReport.ofJson? ⟨maxUnsigned, 0, [awkwardText]⟩ ∧
    Survives SyncReport.toJson SyncReport.ofJson? ⟨[], maxUnsigned⟩ ∧
    ∃ written : Database,
      RecordStore.putChunks "s" [{ awkwardChunk with symbols := [] }, awkwardChunk]
        (after [.createStore "s"] {}) = (.ok (), written) ∧
      written.Returns "s" awkwardChunk := by
  obtain ⟨hdocument, hchunk, hstats, hremoved, hpiece, houtcome, hreport, hdeleted, hsynced,
    hstore⟩ := records_survive_json
  obtain ⟨hwrites, hreturns⟩ := hstore [.createStore "s"] "s"
  have hfile : awkwardOutcome.InRange := ⟨by decide⟩
  have hwrite : (RecordStore.putChunks "s" [{ awkwardChunk with symbols := [] }, awkwardChunk]
      (after [.createStore "s"] ({} : Database))).1 = .ok () :=
    hwrites _ (by decide) (by decide)
  refine ⟨hdocument _ ⟨by decide⟩, hchunk _ ⟨by decide, by decide⟩ rfl, ?_, hremoved _, ?_,
    houtcome _ hfile, ?_, ?_, hsynced _ ⟨by decide⟩, _, Prod.ext hwrite rfl, ?_⟩
  · exact hstats _ ⟨by decide, by decide, by simp⟩
  · exact hpiece _ ⟨by decide, by decide⟩
  · exact hreport _ ⟨by decide, by decide, by decide, by decide, by decide, by simpa using hfile⟩
  · exact hdeleted _ ⟨by decide, by decide⟩
  · exact hreturns [{ awkwardChunk with symbols := [] }] [] awkwardChunk _ (Prod.ext hwrite rfl)
      (by simp)

end CodeIndex
