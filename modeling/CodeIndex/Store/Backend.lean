import CodeIndex.Store.Memory
import CodeIndex.Store.Vector

/-!
# Backends

The configuration chooses one of three backends.  `Backend` is a state of any of them, and is used
as a store through the store that it is.  Two of the three keep a database, which answers full-text
queries.
-/

namespace CodeIndex

/-- A store of any kind. -/
inductive Backend where
  | memory (store : MemoryStore)
  | relational (db : Database)
  | vector (store : VectorStore)

namespace Backend

/-- The database of the backend, if it has one. -/
def database? : Backend → Option Database
  | memory _ => none
  | relational db => some db
  | vector store => some store.records

/-- Make a call on whatever store the backend is. -/
def dispatch {α : Type} (call : (σ : Type) → [RecordStore σ] → StoreCall σ α) :
    StoreCall Backend α
  | memory s => let (answer, s) := call MemoryStore s; (answer, memory s)
  | relational s => let (answer, s) := call Database s; (answer, relational s)
  | vector s => let (answer, s) := call VectorStore s; (answer, vector s)

instance : RecordStore Backend where
  createStore s := dispatch fun _ => RecordStore.createStore s
  hasStore s := dispatch fun _ => RecordStore.hasStore s
  allStores := dispatch fun _ => RecordStore.allStores
  dropStore s := dispatch fun _ => RecordStore.dropStore s
  putDocument s d := dispatch fun _ => RecordStore.putDocument s d
  putChunks s cs := dispatch fun _ => RecordStore.putChunks s cs
  findDocument s p := dispatch fun _ => RecordStore.findDocument s p
  allDocuments s := dispatch fun _ => RecordStore.allDocuments s
  findChunks s ids := dispatch fun _ => RecordStore.findChunks s ids
  dropChunks s ids := dispatch fun _ => RecordStore.dropChunks s ids
  dropDocuments s ps := dispatch fun _ => RecordStore.dropDocuments s ps
  dropDocumentsBelow s p := dispatch fun _ => RecordStore.dropDocumentsBelow s p
  clear s := dispatch fun _ => RecordStore.clear s
  stats s := dispatch fun _ => RecordStore.stats s

end Backend

end CodeIndex
