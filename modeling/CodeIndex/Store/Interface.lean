import CodeIndex.Store.Error
import CodeIndex.Store.Record

/-!
# The interface of stores

A document store is a state together with the calls that read and change it.  A call answers or
fails, and leaves a state behind in either case; what state a failed call leaves is up to the store.

## Main definitions

* `StoreCall` is the type of calls.
* `RecordStore` is the class of states that can answer the calls of the interface.
* `Request` is a call as data, `Answer` what it is answered with, and `perform` makes the call; a
  history of a store is a list of requests.
-/

namespace CodeIndex

/-- A call on a state: an answer or an error, and the state after it. -/
abbrev StoreCall (σ α : Type) := σ → Except StoreError α × σ

/-- The states that can be used as a document store. -/
class RecordStore (σ : Type) where
  /-- Create an empty store, if there is none of the name. -/
  createStore : String → StoreCall σ Unit
  hasStore : String → StoreCall σ Bool
  /-- The names of all stores in order. -/
  allStores : StoreCall σ (List String)
  /-- Remove a store and all it holds. -/
  dropStore : String → StoreCall σ Unit
  /-- Write the record of a document, replacing the one at its path. -/
  putDocument : String → DocumentRecord → StoreCall σ Unit
  /-- Write chunks, replacing those with the same identifier. -/
  putChunks : String → List ChunkRecord → StoreCall σ Unit
  findDocument : String → String → StoreCall σ (Option DocumentRecord)
  /-- All documents in order of their paths. -/
  allDocuments : String → StoreCall σ (List DocumentRecord)
  /-- The chunks with the given identifiers, in the given order; unknown ones are left out. -/
  findChunks : String → List String → StoreCall σ (List ChunkRecord)
  /-- Remove chunks and answer how many there were. -/
  dropChunks : String → List String → StoreCall σ Nat
  /-- Remove the documents at the given paths together with their chunks. -/
  dropDocuments : String → List String → StoreCall σ RemovedDocuments
  /-- Remove the documents whose paths start with a text. -/
  dropDocumentsBelow : String → String → StoreCall σ RemovedDocuments
  /-- Remove all documents and chunks of a store. -/
  clear : String → StoreCall σ Unit
  stats : String → StoreCall σ StoreStats

/-- A call of the interface as data. -/
inductive Request where
  | createStore (store : String)
  | hasStore (store : String)
  | allStores
  | dropStore (store : String)
  | putDocument (store : String) (document : DocumentRecord)
  | putChunks (store : String) (chunks : List ChunkRecord)
  | findDocument (store path : String)
  | allDocuments (store : String)
  | findChunks (store : String) (ids : List String)
  | dropChunks (store : String) (ids : List String)
  | dropDocuments (store : String) (paths : List String)
  | dropDocumentsBelow (store start : String)
  | clear (store : String)
  | stats (store : String)

/-- What a call is answered with. -/
inductive Answer where
  | done
  | truth (value : Bool)
  | names (names : List String)
  | document (document : Option DocumentRecord)
  | documents (documents : List DocumentRecord)
  | chunks (chunks : List ChunkRecord)
  | count (n : Nat)
  | removed (removed : RemovedDocuments)
  | stats (stats : StoreStats)

/-- Turn the answer of a call into data. -/
def StoreCall.answering {σ α : Type} (answer : α → Answer) (call : StoreCall σ α) :
    StoreCall σ Answer :=
  fun s => match call s with
    | (.ok a, s) => (.ok (answer a), s)
    | (.error e, s) => (.error e, s)

/-- Make the call that a request describes. -/
def perform {σ : Type} [RecordStore σ] : Request → StoreCall σ Answer
  | .createStore s => (RecordStore.createStore s).answering fun _ => .done
  | .hasStore s => (RecordStore.hasStore s).answering .truth
  | .allStores => RecordStore.allStores.answering .names
  | .dropStore s => (RecordStore.dropStore s).answering fun _ => .done
  | .putDocument s d => (RecordStore.putDocument s d).answering fun _ => .done
  | .putChunks s cs => (RecordStore.putChunks s cs).answering fun _ => .done
  | .findDocument s p => (RecordStore.findDocument s p).answering .document
  | .allDocuments s => (RecordStore.allDocuments s).answering .documents
  | .findChunks s ids => (RecordStore.findChunks s ids).answering .chunks
  | .dropChunks s ids => (RecordStore.dropChunks s ids).answering .count
  | .dropDocuments s ps => (RecordStore.dropDocuments s ps).answering .removed
  | .dropDocumentsBelow s p => (RecordStore.dropDocumentsBelow s p).answering .removed
  | .clear s => (RecordStore.clear s).answering fun _ => .done
  | .stats s => (RecordStore.stats s).answering .stats

end CodeIndex
