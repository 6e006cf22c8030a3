import CodeIndex.Store.Relational

/-!
# The vector store

The backend that keeps the vectors of chunks in a vector service and everything else in a
relational database.  A point of the service is numbered by the chunk's identifier, so that the
identifier has to be a number in hexadecimal.  Deletions are sent to the service before the
database is touched, so that no vector outlives the chunk it belongs to.

This library has no service to talk to: a call that needs an answer from it fails with
`StoreError.service`, after everything that is checked before the service is asked.

## Main definitions

* `pointNumber` is the number of a point.
* `VectorStore` is the backend; `VectorStore.checkPoints` is what has to hold of chunks before they
  are sent.
-/

namespace CodeIndex

/-- The value of hexadecimal digits, at least one. -/
def hexNumber? (digits : List Char) : Option Nat :=
  if digits.isEmpty then none
  else digits.foldlM (fun n c => (Json.hexValue? c).map (n * 16 + ·)) 0

/-- The number of the point of a chunk: the identifier has sixteen bytes and is a hexadecimal
number, before which a plus sign is allowed. -/
def pointNumber (chunkId : String) : Except StoreError Nat :=
  let digits := match chunkId.toList with
    | '+' :: rest => rest
    | text => text
  match if chunkId.utf8ByteSize = idLength then hexNumber? digits else none with
  | some n => .ok n
  | none => .error (.invalidId chunkId)
where
  /-- Number of bytes of an identifier. -/
  idLength : Nat := 16

/-- A database beside a vector service that does not answer. -/
structure VectorStore where
  records : Database := {}

namespace VectorStore

/-- Answer a call from the database alone. -/
def inRecords {α : Type} (call : StoreCall Database α) : StoreCall VectorStore α :=
  fun s => match call s.records with
    | (answer, db) => (answer, { s with records := db })

/-- Check that every chunk has a vector and a point number, in order. -/
def checkPoints : List ChunkRecord → Except StoreError Unit
  | [] => .ok ()
  | c :: rest =>
    if c.vector.isNone then .error (.missingVector c.chunkId)
    else match pointNumber c.chunkId with
      | .error e => .error e
      | .ok _ => checkPoints rest

/-- Ask the service to delete points; without points there is nothing to ask. -/
def askToForget (chunkIds : List String) : Except StoreError Unit :=
  if chunkIds.isEmpty then .ok () else .error .service

/-- Make a call on the database after the service has done its part. -/
def afterService {α : Type} (store : String) (part : Database → Except StoreError Unit)
    (call : StoreCall Database α) : StoreCall VectorStore α :=
  fun s => match s.records.checkStore store >>= fun _ => part s.records with
    | .error e => (.error e, s)
    | .ok () => inRecords call s

/-- Remove the documents at some paths, their points first. -/
def dropPathsOf (store : String) (paths : Database → List String) :
    StoreCall VectorStore RemovedDocuments :=
  fun s =>
    let pending := s.records.removalsOf store (paths s.records)
    afterService store (fun _ => askToForget pending.chunkIds)
      (RecordStore.dropDocuments store pending.paths) s

instance : RecordStore VectorStore where
  createStore store := inRecords (RecordStore.createStore store)
  hasStore store := inRecords (RecordStore.hasStore store)
  allStores := inRecords RecordStore.allStores
  dropStore _ s := (.error .service, s)
  putDocument store document := inRecords (RecordStore.putDocument store document)
  putChunks store chunks :=
    afterService store
      (fun _ => if chunks.isEmpty then .ok () else checkPoints chunks >>= fun _ => .error .service)
      (RecordStore.putChunks store chunks)
  findDocument store path := inRecords (RecordStore.findDocument store path)
  allDocuments store := inRecords (RecordStore.allDocuments store)
  findChunks store ids := inRecords (RecordStore.findChunks store ids)
  dropChunks store ids :=
    afterService store (fun _ => askToForget ids) (RecordStore.dropChunks store ids)
  dropDocuments store paths := dropPathsOf store fun _ => paths
  dropDocumentsBelow store start := dropPathsOf store (·.pathsBelow store start)
  clear store := afterService store (fun _ => .error .service) (RecordStore.clear store)
  stats store := inRecords (RecordStore.stats store)

/-- The nearest chunks to a vector. -/
def nearest (s : VectorStore) (store : String) (limit : Nat) : Except StoreError (List Hit) :=
  match s.records.checkStore store with
  | .error e => .error e
  | .ok () => if limit = 0 then .ok [] else .error .service

end VectorStore

end CodeIndex
