/-!
# Errors of stores

Why a store could not answer a call.  `StoreError.message` is the text of an error; the texts of
errors that come from a database or a vector service are not this library's, so those carry none.
-/

namespace CodeIndex

/-- Why a store could not answer a call. -/
inductive StoreError where
  /-- The named store has not been created. -/
  | storeNotFound (store : String)
  /-- The database refused a statement. -/
  | database
  /-- The database has a schema that cannot be brought up to date. -/
  | migration
  /-- The vector service did not answer. -/
  | service
  /-- A stored list is not readable. -/
  | json
  /-- A number does not fit the database. -/
  | integerRange
  /-- A vector store received a chunk without a vector. -/
  | missingVector (chunkId : String)
  /-- An identifier has no numeric form. -/
  | invalidId (chunkId : String)
  /-- A lock was left behind by a failed call. -/
  | poisoned (detail : String)
  /-- Any other cause, in words. -/
  | other (detail : String)
deriving DecidableEq, Repr

namespace StoreError

/-- The text of an error. -/
def message : StoreError → String
  | storeNotFound store => "store not found: " ++ store
  | database => "database error: "
  | migration => "migration failed: "
  | service => "Qdrant error: "
  | json => "JSON error: "
  | integerRange => "integer conversion: number too large to fit in target type"
  | missingVector chunkId => "chunk " ++ chunkId ++ " has no vector attached"
  | invalidId chunkId => "invalid chunk id: " ++ chunkId
  | poisoned detail => "lock poisoned: " ++ detail
  | other detail => detail

end StoreError

end CodeIndex
