import Std.Data.TreeMap
import Std.Data.TreeSet
import CodeIndex.Store.Interface

/-!
# The store in memory

The simplest backend: every store is a `Collection` of documents by path and chunks by identifier.
Two further tables, from documents and from paths to the chunks that belong to them, answer which
chunks a document owns and which a deletion has to remove; every change of the chunks keeps them up
to date.

## Main definitions

* `Collection.addChunk`, `Collection.dropChunk` and `Collection.dropDocument` are the changes
  of a collection.
* `MemoryStore` is the backend.
-/

namespace CodeIndex

/-- Chunk identifiers that belong to a key; a key without any is not in the table. -/
abbrev ChunkTable := Std.TreeMap String (Std.TreeSet String)

namespace ChunkTable

/-- Let a chunk belong to a key. -/
def attach (table : ChunkTable) (key chunkId : String) : ChunkTable :=
  table.insert key ((table.getD key ∅).insert chunkId)

/-- Let a chunk no longer belong to a key. -/
def detach (table : ChunkTable) (key chunkId : String) : ChunkTable :=
  match table[key]? with
  | none => table
  | some ids =>
    let rest := ids.erase chunkId
    if rest.isEmpty then table.erase key else table.insert key rest

/-- The chunks that belong to a key, sorted. -/
def idsOf (table : ChunkTable) (key : String) : List String :=
  match table[key]? with
  | none => []
  | some ids => ids.toList

end ChunkTable

/-- The contents of one store. -/
structure Collection where
  documents : Std.TreeMap String DocumentRecord := ∅
  chunks : Std.TreeMap String ChunkRecord := ∅
  byDocument : ChunkTable := ∅
  byPath : ChunkTable := ∅

namespace Collection

/-- A document with the chunks that it owns. -/
def listed (col : Collection) (document : DocumentRecord) : DocumentRecord :=
  { document with chunkIds := col.byDocument.idsOf document.documentId }

/-- Write the record of a document. -/
def addDocument (col : Collection) (document : DocumentRecord) : Collection :=
  { col with documents := col.documents.insert document.path { document with chunkIds := [] } }

/-- Take a chunk that was replaced by `chunk` out of the tables, where it stood elsewhere. -/
def detachMoved (col : Collection) (previous chunk : ChunkRecord) : Collection :=
  { col with
    byDocument :=
      if chunk.documentId ≠ previous.documentId then
        col.byDocument.detach previous.documentId previous.chunkId
      else col.byDocument
    byPath :=
      if chunk.path ≠ previous.path then col.byPath.detach previous.path previous.chunkId
      else col.byPath }

/-- Write a chunk, replacing the one with the same identifier. -/
def addChunk (col : Collection) (chunk : ChunkRecord) : Collection :=
  let inserted : Collection :=
    { col with
      chunks := col.chunks.insert chunk.chunkId chunk
      byDocument := col.byDocument.attach chunk.documentId chunk.chunkId
      byPath := col.byPath.attach chunk.path chunk.chunkId }
  match col.chunks[chunk.chunkId]? with
  | none => inserted
  | some previous => inserted.detachMoved previous chunk

/-- Remove a chunk, if it is there. -/
def dropChunk (col : Collection) (chunkId : String) : Collection :=
  match col.chunks[chunkId]? with
  | none => col
  | some chunk =>
    { col with
      chunks := col.chunks.erase chunkId
      byDocument := col.byDocument.detach chunk.documentId chunkId
      byPath := col.byPath.detach chunk.path chunkId }

/-- Remove chunks and count those that were there. -/
def dropChunks (col : Collection) (ids : List String) : Nat × Collection :=
  ids.foldl (fun (count, col) id =>
    (if col.chunks.contains id then count + 1 else count, col.dropChunk id)) (0, col)

/-- Remove the document at a path together with the chunks at the path, adding them to `removed`. -/
def dropDocument (col : Collection) (removed : RemovedDocuments) (path : String) :
    RemovedDocuments × Collection :=
  if col.documents.contains path then
    let ids := col.byPath.idsOf path
    (⟨removed.paths ++ [path], removed.chunkIds ++ ids⟩,
      ids.foldl dropChunk { col with documents := col.documents.erase path })
  else (removed, col)

/-- Remove the documents at some paths. -/
def dropDocuments (col : Collection) (paths : List String) : RemovedDocuments × Collection :=
  paths.foldl (fun (removed, col) path => col.dropDocument removed path) ({}, col)

/-- The paths of documents that start with a text, in order. -/
def pathsBelow (col : Collection) (start : String) : List String :=
  col.documents.keys.filter fun path => start.toList.isPrefixOf path.toList

/-- The counters of a collection. -/
def stats (col : Collection) (store : String) : StoreStats where
  store
  documents := col.documents.size
  chunks := col.chunks.size
  lastIndexedAt := latest? (col.documents.values.map (·.indexedAt))

end Collection

/-- All stores by name. -/
structure MemoryStore where
  stores : Std.TreeMap String Collection := ∅

namespace MemoryStore

/-- Answer a call from the contents of a store. -/
def reading {α : Type} (store : String) (read : Collection → α) : StoreCall MemoryStore α :=
  fun m => match m.stores[store]? with
    | none => (.error (.storeNotFound store), m)
    | some col => (.ok (read col), m)

/-- Answer a call by changing the contents of a store. -/
def changing {α : Type} (store : String) (change : Collection → α × Collection) :
    StoreCall MemoryStore α :=
  fun m => match m.stores[store]? with
    | none => (.error (.storeNotFound store), m)
    | some col =>
      let (answer, col) := change col
      (.ok answer, { m with stores := m.stores.insert store col })

instance : RecordStore MemoryStore where
  createStore store m :=
    (.ok (), { m with stores := m.stores.insertIfNew store {} })
  hasStore store m := (.ok (m.stores.contains store), m)
  allStores m := (.ok m.stores.keys, m)
  dropStore store m := (.ok (), { m with stores := m.stores.erase store })
  putDocument store document := changing store fun col => ((), col.addDocument document)
  putChunks store chunks :=
    changing store fun col => ((), chunks.foldl Collection.addChunk col)
  findDocument store path :=
    reading store fun col => col.documents[path]?.map col.listed
  allDocuments store := reading store fun col => col.documents.values.map col.listed
  findChunks store ids := reading store fun col => ids.filterMap fun id => col.chunks[id]?
  dropChunks store ids m :=
    if ids.isEmpty then (.ok 0, m) else changing store (·.dropChunks ids) m
  dropDocuments store paths := changing store (·.dropDocuments paths)
  dropDocumentsBelow store start :=
    changing store fun col => col.dropDocuments (col.pathsBelow start)
  clear store := changing store fun _ => ((), {})
  stats store := reading store fun col => col.stats store

end MemoryStore

end CodeIndex
