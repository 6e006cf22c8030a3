import CodeIndex.FullText.Index
import CodeIndex.FullText.Query
import CodeIndex.Search.RankFusion
import CodeIndex.Store.Interface
import CodeIndex.Store.RecordJson

/-!
# The relational store

The backend that keeps everything in the tables of a database: the names of the stores, a row for
each document and a row for each chunk of every store, and a full-text index over the chunk rows.
A chunk row keeps the symbols as JSON text and has a number, by which the index refers to it.  The
number stays the same when the row is overwritten; a new row gets the next number after those in
use, so the number of a row that was deleted can come back with another chunk, and every insertion,
update and deletion of a chunk row has to be followed by the index.  A statement that fails in the
middle of a call undoes the whole call.

## Main definitions

* `Database` holds the tables.  `Database.addChunk`, `Database.dropChunkRows` and
  `Database.dropDocumentRows` are the statements that change them.
* `Database.removalsOf` says what a deletion of documents would remove and
  `Database.dropPaths` removes it.
* `Database.matching` ranks the chunks of a store by a full-text query.
-/

namespace CodeIndex

/-- A row of the table of documents. -/
structure DocumentRow where
  store : String
  path : String
  documentId : String
  contentHash : String
  language : String
  indexedAt : Int
deriving DecidableEq, Repr

/-- A row of the table of chunks. -/
structure ChunkRow where
  row : Nat
  store : String
  chunkId : String
  documentId : String
  path : String
  language : String
  nodeType : String
  startLine : Nat
  endLine : Nat
  content : String
  /-- The list of symbols as JSON text. -/
  symbols : String
deriving DecidableEq, Repr

namespace ChunkRow

/-- The chunk of a row; the list of symbols has to be readable. -/
def record (r : ChunkRow) : Except StoreError ChunkRecord :=
  match (Json.parse? r.symbols.toList).bind Json.Value.strings? with
  | none => .error .json
  | some symbols =>
    .ok ⟨r.chunkId, r.documentId, r.path, r.language, r.nodeType, r.startLine, r.endLine, r.content,
      symbols, none⟩

/-- What the full-text index keeps of a row. -/
def columns (r : ChunkRow) : FullText.Columns := .ofTexts r.path r.symbols r.content

end ChunkRow

/-- The greatest number that fits a column. -/
def maxColumnValue : Nat := 0x7FFFFFFFFFFFFFFF

/-- The tables of the database and the full-text index. -/
structure Database where
  stores : List String := []
  documents : List DocumentRow := []
  chunks : List ChunkRow := []
  index : FullText.Index := {}

namespace Database

/-- Order texts by their octets. -/
def sortTexts (texts : List String) : List String := texts.mergeSort fun a b => decide (a ≤ b)

/-- Whether a store exists. -/
def hasStore (db : Database) (store : String) : Bool := db.stores.contains store

/-- Fail unless the store exists. -/
def checkStore (db : Database) (store : String) : Except StoreError Unit :=
  if db.hasStore store then .ok () else .error (.storeNotFound store)

/-- Delete the chunk rows with a property; the index follows. -/
def dropChunkRows (db : Database) (drop : ChunkRow → Bool) : Database :=
  { db with
    chunks := db.chunks.filter fun r => !drop r
    index := (db.chunks.filter drop).foldl (fun index r => index.delete r.row) db.index }

/-- Delete the document rows with a property. -/
def dropDocumentRows (db : Database) (drop : DocumentRow → Bool) : Database :=
  { db with documents := db.documents.filter fun r => !drop r }

/-- Whether a row holds the given chunk of a store. -/
def isChunk (store chunkId : String) (r : ChunkRow) : Bool :=
  r.store == store && r.chunkId == chunkId

/-- The number of a new chunk row: one more than the greatest number in use. -/
def nextRow (db : Database) : Nat := (db.chunks.map (·.row)).max?.getD 0 + 1

/-- Write a row for a chunk; a row with the same identifier keeps its number. -/
def addChunk (db : Database) (store : String) (c : ChunkRecord) : Database :=
  let rowOf (row : Nat) : ChunkRow :=
    { row, store, chunkId := c.chunkId, documentId := c.documentId, path := c.path,
      language := c.language, nodeType := c.nodeType, startLine := c.startLine,
      endLine := c.endLine, content := c.content,
      symbols := (Json.Value.ofStrings c.symbols).toText }
  match db.chunks.find? (isChunk store c.chunkId) with
  | some old =>
    let new := rowOf old.row
    { db with
      chunks := db.chunks.map fun r => if isChunk store c.chunkId r then new else r
      index := (db.index.delete old.row).insert old.row new.columns }
  | none =>
    let new := rowOf db.nextRow
    { db with
      chunks := db.chunks ++ [new]
      index := db.index.insert new.row new.columns }

/-- Write rows for chunks until one has a line number that does not fit. -/
def addChunks (store : String) : List ChunkRecord → Database → Except StoreError Database
  | [], db => .ok db
  | c :: rest, db =>
    if maxColumnValue < c.startLine ∨ maxColumnValue < c.endLine then .error .integerRange
    else addChunks store rest (db.addChunk store c)

/-- Whether a row holds the document at a path of a store. -/
def isDocument (store path : String) (r : DocumentRow) : Bool :=
  r.store == store && r.path == path

/-- Write the row of a document. -/
def addDocument (db : Database) (store : String) (d : DocumentRecord) : Database :=
  let new : DocumentRow :=
    { store, path := d.path, documentId := d.documentId, contentHash := d.contentHash,
      language := d.language, indexedAt := d.indexedAt }
  if db.documents.any (isDocument store d.path) then
    { db with documents := db.documents.map fun r => if isDocument store d.path r then new else r }
  else { db with documents := db.documents ++ [new] }

/-- The identifiers of the chunks with a property, in order. -/
def chunkIdsWhere (db : Database) (p : ChunkRow → Bool) : List String :=
  sortTexts ((db.chunks.filter p).map (·.chunkId))

/-- The record of a document row, with the chunks of its identifier. -/
def documentOf (db : Database) (r : DocumentRow) : DocumentRecord where
  documentId := r.documentId
  path := r.path
  contentHash := r.contentHash
  language := r.language
  indexedAt := r.indexedAt
  chunkIds := db.chunkIdsWhere fun c => c.store == r.store && c.documentId == r.documentId

/-- The document rows of a store in order of their paths. -/
def documentRows (db : Database) (store : String) : List DocumentRow :=
  (db.documents.filter (·.store == store)).mergeSort fun a b => decide (a.path ≤ b.path)

/-- What a deletion of the documents at some paths would remove. -/
def removalsOf (db : Database) (store : String) (paths : List String) : RemovedDocuments :=
  paths.foldl (fun removed path =>
    if db.documents.any (isDocument store path) then
      ⟨removed.paths ++ [path],
        removed.chunkIds ++ db.chunkIdsWhere fun c => c.store == store && c.path == path⟩
    else removed) {}

/-- Whether the path starts with a text.  The database counts the characters of the text up to its
first NUL, cuts that many off the path, and compares them with the whole text. -/
def startsWith (start path : String) : Bool :=
  let count := (start.toList.takeWhile (· != '\x00')).length
  (path.toList.takeWhile (· != '\x00')).take count == start.toList

/-- The paths of the documents of a store that start with a text, in order. -/
def pathsBelow (db : Database) (store start : String) : List String :=
  ((db.documentRows store).filter fun r => startsWith start r.path).map (·.path)

/-- Remove the documents at some paths together with the chunks at these paths. -/
def dropPaths (db : Database) (store : String) (paths : List String) :
    RemovedDocuments × Database :=
  let removed := db.removalsOf store paths
  (removed, removed.paths.foldl (fun db path =>
    (db.dropChunkRows fun c => c.store == store && c.path == path).dropDocumentRows
      (isDocument store path)) db)

/-- Remove one chunk after the other and count those that were there. -/
def dropChunks (db : Database) (store : String) (ids : List String) : Nat × Database :=
  ids.foldl (fun (count, db) id =>
    (count + (db.chunks.filter (isChunk store id)).length,
      db.dropChunkRows (isChunk store id))) (0, db)

/-- Remove all rows of a store. -/
def emptied (db : Database) (store : String) : Database :=
  (db.dropChunkRows (·.store == store)).dropDocumentRows (·.store == store)

/-- Answer a call on an existing store. -/
def reading {α : Type} (store : String) (read : Database → Except StoreError α) :
    StoreCall Database α :=
  fun db => (db.checkStore store >>= fun _ => read db, db)

/-- Answer a call on an existing store by changing it. -/
def changing {α : Type} (store : String) (change : Database → Except StoreError (α × Database)) :
    StoreCall Database α :=
  fun db => match db.checkStore store >>= fun _ => change db with
    | .ok (answer, db) => (.ok answer, db)
    | .error e => (.error e, db)

/-- The record of the chunk with an identifier, if there is one. -/
def chunk? (db : Database) (store chunkId : String) : Except StoreError (Option ChunkRecord) :=
  match db.chunks.find? (isChunk store chunkId) with
  | none => .ok none
  | some r => r.record.map some

/-- The counters of a store. -/
def statsOf (db : Database) (store : String) : StoreStats where
  store
  documents := (db.documentRows store).length
  chunks := (db.chunks.filter (·.store == store)).length
  lastIndexedAt := latest? ((db.documentRows store).map (·.indexedAt))

instance : RecordStore Database where
  createStore store db :=
    (.ok (), if db.hasStore store then db else { db with stores := db.stores ++ [store] })
  hasStore store db := (.ok (db.hasStore store), db)
  allStores db := (.ok (sortTexts db.stores), db)
  dropStore store db :=
    (.ok (), { db.emptied store with stores := db.stores.filter (· != store) })
  putDocument store document :=
    changing store fun db => .ok ((), db.addDocument store document)
  putChunks store chunks :=
    changing store fun db => (addChunks store chunks db).map fun db => ((), db)
  findDocument store path :=
    reading store fun db => .ok ((db.documents.find? (isDocument store path)).map db.documentOf)
  allDocuments store := reading store fun db => .ok ((db.documentRows store).map db.documentOf)
  findChunks store ids :=
    reading store fun db => (ids.mapM (db.chunk? store)).map fun found => found.filterMap id
  dropChunks store ids := changing store fun db => .ok (db.dropChunks store ids)
  dropDocuments store paths := changing store fun db => .ok (db.dropPaths store paths)
  dropDocumentsBelow store start :=
    changing store fun db => .ok (db.dropPaths store (db.pathsBelow store start))
  clear store := changing store fun db => .ok ((), db.emptied store)
  stats store := reading store fun db => .ok (db.statsOf store)

/-- Whether one ranked chunk may stand before another: a better score first, then by identifier. -/
def rankedBefore (a b : String × Float) : Bool :=
  totalOrderKey b.2 < totalOrderKey a.2 ||
    (totalOrderKey a.2 == totalOrderKey b.2 && decide (a.1 ≤ b.1))

/-- The chunks of a store that a full-text expression matches, with their scores. -/
def rankedChunks (db : Database) (store : String) (phrases : List (List FullText.Token)) :
    List (String × Float) :=
  ((db.index.search phrases).filterMap fun (row, score) =>
    match db.chunks.find? (·.row == row) with
    | some r => if r.store == store then some (r.chunkId, score) else none
    | none => none).mergeSort rankedBefore

/-- The best chunks of a store for the words of a query. -/
def matching (db : Database) (store query : String) (limit : Nat) :
    Except StoreError (List Hit) :=
  match db.checkStore store with
  | .error e => .error e
  | .ok () =>
    match FullText.encode? query.toList with
    | none => .ok []
    | some expression =>
      if limit = 0 then .ok []
      else if maxColumnValue < limit then .error .integerRange
      else
        match FullText.read? expression with
        | none => .error .database
        | some phrases =>
          .ok (((db.rankedChunks store (phrases.map FullText.tokenize)).take limit).map
            fun (chunkId, score) => ⟨chunkId, Number.narrow score⟩)

end Database

end CodeIndex
