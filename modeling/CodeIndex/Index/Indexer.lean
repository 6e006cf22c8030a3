import CodeIndex.Chunk.Structural
import CodeIndex.Identity
import CodeIndex.Index.Error
import CodeIndex.Index.Report
import CodeIndex.Language.Detect
import CodeIndex.Store.Interface
import CodeIndex.Text.Words

/-!
# Keeping a store up to date

An `Indexer` brings source files into a document store and keeps it in step with them: it
cuts each file into chunks, gives the chunks their identifiers and, with an embedder, their vectors,
and writes them together with the record of the document.  A file whose version is stored already
is left alone.

The operations run on an `IndexState`, the store together with the cancellation token and what else
changes from call to call.  An operation that fails leaves the state that it had reached.

## Main definitions

* `SourceFile` is what is handed in, `decodeSource` its text and language, and `Indexer.records`
  the chunks to be written for it.
* `Indexer.indexFile` brings one file in: everything that can fail without a trace in the store
  comes first, then the old version is deleted and the new one written.
* `Indexer.addFiles`, `rebuild`, `removeFiles`, `syncMissing` and `syncDeleted` are the
  operations on whole stores.
-/

namespace CodeIndex

/-- A file as it is handed to the index: its path in the store and its raw bytes. -/
structure SourceFile where
  path : String
  content : List UInt8
deriving DecidableEq, Repr

/-- Limits on files, and the size of windows. -/
structure IndexSettings where
  window : WindowSize := {}
  /-- Greatest number of bytes of a file. -/
  maxFileSize : Nat := 10 * 1024 * 1024
  /-- Greatest number of bytes of a path. -/
  maxPathLength : Nat := 1024
deriving DecidableEq, Repr

/-- The text of a file and the language to cut it as.  A file that is not UTF-8 is of no language,
and neither its malformed parts nor its NUL characters survive. -/
def decodeSource (file : SourceFile) : List Char × Language :=
  let decoded := Text.Utf8.decode file.content
  if decoded.malformed then
    (Text.replaceChar '\x00' Text.Utf8.replacement decoded.text, .unknown)
  else (decoded.text, Language.ofPath file.path)

/-- What the operations of the index read and change. -/
structure IndexState (σ : Type) where
  store : σ
  token : Cancellation := .never
  /-- How often the embedder has been called. -/
  embedCalls : Nat := 0
  /-- The time that documents are stamped with, in seconds since the epoch. -/
  now : Int := 0

/-- Operations of the index: the state that was reached is kept when one fails. -/
abbrev Indexing (σ : Type) := ExceptT IndexError (StateM (IndexState σ))

namespace Indexing

variable {σ α : Type}

/-- Ask the token, and stop if it has fired. -/
def checkpoint : Indexing σ Unit := do
  let state ← get
  let (fired, token) := state.token.poll
  set { state with token }
  if fired then throw .cancelled

/-- Make a store call. -/
def call (request : StoreCall σ α) : Indexing σ α := do
  let state ← get
  let (answer, store) := request state.store
  set { state with store }
  match answer with
  | .ok a => return a
  | .error e => throw (.ofStore e)

/-- Run an operation and turn its error into an answer. -/
def attempt (operation : Indexing σ α) : Indexing σ (Except IndexError α) :=
  ExceptT.mk do return .ok (← operation.run)

end Indexing

/-- How files are brought into a store. -/
structure Indexer where
  chunker : Chunker
  embedder : Option Embedder := none
  options : IndexSettings := {}

namespace Indexer

open Indexing RecordStore

variable {σ : Type} [RecordStore σ]

/-- Refuse a file without a path, and one whose path or content is too long. -/
def validate (options : IndexSettings) (file : SourceFile) : Except IndexError Unit :=
  if file.path.isEmpty then .error (.invalidDocument "empty path")
  else if options.maxPathLength < file.path.utf8ByteSize then
    .error (.invalidDocument s!"path longer than {options.maxPathLength} bytes")
  else if options.maxFileSize < file.content.length then
    .error (.invalidDocument
      s!"{file.content.length} bytes exceeds limit of {options.maxFileSize}")
  else .ok ()

/-- The record of a chunk of a document. -/
def recordOf (path documentId : String) (language : Language) (chunk : Chunk) : ChunkRecord where
  chunkId := chunkId path chunk.startLine chunk.endLine
  documentId
  path
  language := language.id
  nodeType := chunk.nodeType
  startLine := chunk.startLine
  endLine := chunk.endLine
  content := chunk.content
  symbols := chunk.symbols

/-- Cut a text into chunks. -/
def cut (indexer : Indexer) (text : List Char) (language : Language) :
    Indexing σ (List Chunk) := do
  let state ← get
  let (answer, token) :=
    indexer.chunker.chunks text language indexer.options.window state.token
  set { state with token }
  match answer with
  | .ok chunks => return chunks
  | .error e => throw (.ofParse e)

/-- The vectors of some texts. -/
def embed (embedder : Embedder) (texts : List String) : Indexing σ (List Vector32) := do
  let state ← get
  let (answer, token) := embedder.embed state.embedCalls texts state.token
  set { state with token, embedCalls := state.embedCalls + 1 }
  match answer with
  | .ok vectors => return vectors
  | .error e => throw (.ofEmbed e)

/-- Give each record the vector of its chunk. -/
def withVectors (embedder : Embedder) (path : String) (chunks : List Chunk)
    (records : List ChunkRecord) : Indexing σ (List ChunkRecord) := do
  if chunks.isEmpty then return records
  let vectors ← embed embedder (chunks.map (Chunk.contextualized path))
  if vectors.length ≠ records.length then
    throw (.embedding
      s!"{embedder.name} returned {vectors.length} vectors for {records.length} chunks")
  return records.zipWith (fun record vector => { record with vector := some vector }) vectors

/-- The records of the chunks of a file. -/
def records (indexer : Indexer) (documentId path : String) (text : List Char)
    (language : Language) : Indexing σ (List ChunkRecord) := do
  let chunks ← indexer.cut text language
  let records := chunks.map (recordOf path documentId language)
  match indexer.embedder with
  | none => return records
  | some embedder => withVectors embedder path chunks records

/-- Make a store call that writes part of a file; if it fails, the chunks of the file are removed
again as far as that is possible. -/
def writing (store : String) (chunkIds : List String) (request : StoreCall σ Unit) :
    Indexing σ Unit := do
  match ← attempt (call request) with
  | .ok () => return ()
  | .error e =>
    discard (attempt (call (dropChunks store chunkIds)))
    throw e

/-- Bring one file into the store. -/
def indexFile (indexer : Indexer) (store : String) (force : Bool) (file : SourceFile) :
    Indexing σ FileOutcome := do
  ExceptT.mk (pure (validate indexer.options file))
  let hash := contentHash file.content
  let documentId := documentId file.path hash
  let existing ← call (findDocument store file.path)
  match existing.filter fun document => !force && document.documentId == documentId with
  | some document =>
    return { path := file.path, documentId, status := .skipped, chunks := document.chunkIds.length }
  | none =>
    let (text, language) := decodeSource file
    let records ← indexer.records documentId file.path text language
    checkpoint
    if existing.isSome then discard (call (dropDocuments store [file.path]))
    let chunkIds := records.map (·.chunkId)
    writing store chunkIds (putChunks store records)
    writing store chunkIds (putDocument store
      { documentId, path := file.path, contentHash := hash, language := language.id
        indexedAt := (← get).now })
    return { path := file.path, documentId, status := .indexed, chunks := records.length }

/-- Bring the remaining files of a batch into the store and enter what happens to them. -/
def indexBatch (indexer : Indexer) (store : String) (force : Bool) (report : IndexReport) :
    List SourceFile → Indexing σ IndexReport
  | [] => return report
  | file :: rest => do
    checkpoint
    match ← attempt (indexer.indexFile store force file) with
    | .ok outcome => indexer.indexBatch store force (report.record outcome) rest
    | .error e =>
      if e.endsBatch then throw e
      else indexer.indexBatch store force (report.recordFailure file.path e.message) rest

/-- Fail unless the store has been created. -/
def checkExists (store : String) : Indexing σ Unit := do
  if !(← call (hasStore store)) then throw (.notFound store)

/-- Bring files into a store.  Files whose version is stored are skipped unless `force` is set, and
files that fail do not keep the others from being indexed. -/
def addFiles (indexer : Indexer) (store : String) (force : Bool) (files : List SourceFile) :
    Indexing σ IndexReport := do
  checkExists store
  indexer.indexBatch store force { store } files

/-- Clear a store and bring files into it. -/
def rebuild (indexer : Indexer) (store : String) (files : List SourceFile) :
    Indexing σ IndexReport := do
  checkExists store
  call (RecordStore.clear store)
  indexer.indexBatch store true { store } files

/-- Delete documents by path, and those whose paths start with a text unless it is empty.  Unknown
paths and a missing store are passed over. -/
def removeFiles (store : String) (paths : List String) (start : Option String) :
    Indexing σ DeleteReport := do
  if !(← call (hasStore store)) then return {}
  let named ← call (dropDocuments store paths)
  let removed ← match start.filter (!·.isEmpty) with
    | none => pure named
    | some start => named.merge <$> call (dropDocumentsBelow store start)
  return {
    documentsRemoved := removed.paths.length
    chunksRemoved := removed.chunkIds.length
    paths := removed.paths }

/-- Delete the documents whose paths are not present any more. -/
def syncMissing (store : String) (isPresent : String → Bool) : Indexing σ SyncReport := do
  checkExists store
  let documents ← call (allDocuments store)
  let stale := (documents.map (·.path)).filter (!isPresent ·)
  if stale.isEmpty then return {}
  let removed ← call (dropDocuments store stale)
  return { removed := removed.paths, chunksRemoved := removed.chunkIds.length }

/-- Delete the documents that are not at one of the given paths. -/
def syncDeleted (store : String) (current : List String) : Indexing σ SyncReport :=
  syncMissing store current.contains

/-- The counters of a store. -/
def stats (store : String) : Indexing σ StoreStats := call (RecordStore.stats store)

end Indexer

end CodeIndex
