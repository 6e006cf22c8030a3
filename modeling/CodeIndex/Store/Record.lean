/-!
# Records of a store

What a store keeps and what it answers with: the record of a document, the records of the chunks
that it was cut into, the counters of a store, and the account of what a deletion removed.
-/

namespace CodeIndex

/-- The indexed version of a source file. -/
structure DocumentRecord where
  documentId : String
  path : String
  contentHash : String
  language : String
  /-- Seconds since the epoch at which this version was written. -/
  indexedAt : Int
  /-- The chunks that the document owns, sorted.  A store fills this list in when it answers and
  ignores it when it writes. -/
  chunkIds : List String := []
deriving DecidableEq, Repr

/-- A chunk as it is stored. -/
structure ChunkRecord where
  chunkId : String
  documentId : String
  path : String
  language : String
  nodeType : String
  startLine : Nat
  endLine : Nat
  content : String
  symbols : List String := []
  vector : Option (List Float32) := none

/-- The counters of a store. -/
structure StoreStats where
  store : String
  documents : Nat
  chunks : Nat
  lastIndexedAt : Option Int
deriving DecidableEq, Repr

/-- What a deletion removed. -/
structure RemovedDocuments where
  paths : List String := []
  chunkIds : List String := []
deriving DecidableEq, Repr

namespace RemovedDocuments

/-- Append a text that is not in the list yet. -/
def addNew (texts : List String) (text : String) : List String :=
  if texts.contains text then texts else texts ++ [text]

/-- Add what another deletion removed and this one did not. -/
def merge (removed other : RemovedDocuments) : RemovedDocuments where
  paths := other.paths.foldl addNew removed.paths
  chunkIds := other.chunkIds.foldl addNew removed.chunkIds

/-- Whether nothing was removed. -/
def isEmpty (removed : RemovedDocuments) : Bool :=
  removed.paths.isEmpty && removed.chunkIds.isEmpty

end RemovedDocuments

/-- The latest of some times. -/
def latest? (times : List Int) : Option Int :=
  times.foldl (fun found time => some (match found with
    | none => time
    | some seen => max seen time)) none

end CodeIndex
