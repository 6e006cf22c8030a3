import CodeIndex.Proofs.Store.DatabaseLaws
import CodeIndex.Proofs.Store.History

/-!
# The statements of the database

A call on the database looks for its store, reads what it needs, and then changes the tables by one
statement after the other.  The statements of a call are executed in a transaction, so that a
statement that fails takes those before it along.  Here the statements are written down one by one,
and with them what becomes of a call when the database breaks down between two of them.

## Main definitions

* `Statement` is a statement that changes a table, and `Database.statements` are those of a request.
* `Database.execute` executes statements up to the first that fails, and leaves the tables as they
  are at that point; `Database.transaction` then restores them.
* `Database.interrupted` makes the call that a request describes on a database that may break down
  at any statement.

## Main results

* `Database.interrupted_unbroken`: if it does not break down, this is what `perform` does.
* `Database.snd_perform_cases`: so a call changes the database by its statements or not at all.
-/

namespace CodeIndex

/-- A statement that changes a table. -/
inductive Statement where
  | insertStore (store : String)
  | deleteStore (store : String)
  | upsertDocument (store : String) (document : DocumentRecord)
  | upsertChunk (store : String) (chunk : ChunkRecord)
  | deleteDocuments (drop : DocumentRow → Bool)
  | deleteChunks (drop : ChunkRow → Bool)

/-- Execute a statement. -/
def Statement.run (db : Database) : Statement → Except StoreError Database
  | insertStore store =>
    .ok (if db.hasStore store then db else { db with stores := db.stores ++ [store] })
  | deleteStore store => .ok { db with stores := db.stores.filter (· != store) }
  | upsertDocument store document => .ok (db.addDocument store document)
  | upsertChunk store chunk => Database.addChunks store [chunk] db
  | deleteDocuments drop => .ok (db.dropDocumentRows drop)
  | deleteChunks drop => .ok (db.dropChunkRows drop)

/-- Where the database breaks down: the error that comes instead of a statement, or instead of the
end of the transaction, by the number of statements before it. -/
abbrev Breakdowns := Nat → Option StoreError

/-- A database that does not break down. -/
def unbroken : Breakdowns := fun _ => none

/-- The store that has to exist for the request to be answered. -/
def Request.needs : Request → Option String
  | createStore _ | hasStore _ | allStores | dropStore _ => none
  | putDocument store _ | putChunks store _ | findDocument store _ | allDocuments store
  | findChunks store _ | dropChunks store _ | dropDocuments store _ | dropDocumentsBelow store _
  | clear store | stats store => some store

namespace Database

/-- Execute statements until one of them fails or the database breaks down.  The tables are left as
the statements before that have made them. -/
def execute (breaks : Breakdowns) :
    Nat → List Statement → Database → Except StoreError Unit × Database
  | n, [], db => match breaks n with
    | some e => (.error e, db)
    | none => (.ok (), db)
  | n, statement :: rest, db => match breaks n with
    | some e => (.error e, db)
    | none => match statement.run db with
      | .error e => (.error e, db)
      | .ok db => execute breaks (n + 1) rest db

/-- Execute statements and restore the tables if one of them fails. -/
def transaction (breaks : Breakdowns) (statements : List Statement) : StoreCall Database Unit :=
  fun db => match execute breaks 0 statements db with
    | (.ok (), after) => (.ok (), after)
    | (.error e, _) => (.error e, db)

/-- The statements that remove the documents at some paths with the chunks at these paths. -/
def removal (store : String) (paths : List String) : List Statement :=
  paths.flatMap fun path =>
    [.deleteChunks fun c => c.store == store && c.path == path,
      .deleteDocuments (isDocument store path)]

/-- The statements that remove all rows of a store. -/
def emptying (store : String) : List Statement :=
  [.deleteChunks (·.store == store), .deleteDocuments (·.store == store)]

/-- The statements by which a request changes the tables. -/
def statements (db : Database) : Request → List Statement
  | .createStore store => [.insertStore store]
  | .dropStore store => emptying store ++ [.deleteStore store]
  | .putDocument store document => [.upsertDocument store document]
  | .putChunks store chunks => chunks.map (.upsertChunk store)
  | .dropChunks store ids => ids.map fun id => .deleteChunks (isChunk store id)
  | .dropDocuments store paths => removal store (db.removalsOf store paths).paths
  | .dropDocumentsBelow store start =>
    removal store (db.removalsOf store (db.pathsBelow store start)).paths
  | .clear store => emptying store
  | .hasStore _ | .allStores | .findDocument _ _ | .allDocuments _ | .findChunks _ _ | .stats _ => []

/-- Fail unless the store that the request needs exists. -/
def checkNeeds (db : Database) (request : Request) : Except StoreError Unit :=
  match request.needs with
  | none => .ok ()
  | some store => db.checkStore store

/-- Make the call that a request describes on a database that may break down. -/
def interrupted (breaks : Breakdowns) (request : Request) : StoreCall Database Answer :=
  fun db => match db.checkNeeds request with
    | .error e => (.error e, db)
    | .ok () => match transaction breaks (db.statements request) db with
      | (.error e, db) => (.error e, db)
      | (.ok (), after) => ((perform request db).1, after)

/-! ## Without a breakdown -/

variable {db : Database} {request : Request}

theorem execute_unbroken (n : Nat) (statements : List Statement) (db : Database) :
    (execute unbroken n statements db).1 = (statements.foldlM Statement.run db).map (fun _ => ()) ∧
      ∀ after, statements.foldlM Statement.run db = .ok after →
        (execute unbroken n statements db).2 = after := by
  induction statements generalizing n db with
  | nil => exact ⟨rfl, fun after h => Except.ok.inj h⟩
  | cons statement rest ih =>
    rw [List.foldlM_cons]
    cases hrun : statement.run db with
    | error e => simp [execute, unbroken, hrun, bind, Except.bind, Except.map]
    | ok next =>
      have hexecute : execute unbroken n (statement :: rest) db =
          execute unbroken (n + 1) rest next := by simp [execute, unbroken, hrun]
      rw [hexecute]
      exact ih (n + 1) next

theorem transaction_unbroken (statements : List Statement) (db : Database) :
    transaction unbroken statements db = match statements.foldlM Statement.run db with
      | .ok after => (.ok (), after)
      | .error e => (.error e, db) := by
  obtain ⟨hanswer, hafter⟩ := execute_unbroken 0 statements db
  unfold transaction
  generalize execute unbroken 0 statements db = executed at hanswer hafter
  obtain ⟨answer, reached⟩ := executed
  cases hfold : statements.foldlM Statement.run db with
  | error e =>
    rw [hfold] at hanswer
    obtain rfl : answer = .error e := hanswer
    rfl
  | ok after =>
    rw [hfold] at hanswer
    obtain rfl : answer = .ok () := hanswer
    obtain rfl : reached = after := hafter after hfold
    rfl

theorem checkNeeds_of_some {name : String} (hneeds : request.needs = some name) :
    db.checkNeeds request = db.checkStore name := by
  simp only [checkNeeds, hneeds]

/-- A request without statements. -/
theorem interrupted_unbroken_of_reading {α : Type} {name : String} {answer : α → Answer}
    {read : Database → Except StoreError α}
    (hperform : perform request = (reading name read).answering answer)
    (hneeds : request.needs = some name) (hnone : db.statements request = []) :
    interrupted unbroken request db = perform request db := by
  have hstate : (perform request db).2 = db := by
    rw [hperform, snd_answering]
    rfl
  have hanswer : (perform request db).1 =
      (db.checkStore name >>= fun _ => read db).map answer := by
    rw [hperform, fst_answering]
    rfl
  rw [interrupted, checkNeeds_of_some hneeds, hnone]
  cases hcheck : db.checkStore name with
  | error e =>
    rw [hcheck] at hanswer
    exact (Prod.ext hanswer hstate).symm
  | ok _ => exact Prod.ext rfl hstate.symm

/-- A request whose change comes to the execution of its statements. -/
theorem interrupted_unbroken_of_changing {α : Type} {name : String} {answer : α → Answer}
    {change : Database → Except StoreError (α × Database)}
    (hperform : perform request = (changing name change).answering answer)
    (hneeds : request.needs = some name) {a : α} (hchange : change db =
      ((db.statements request).foldlM Statement.run db).map fun after => (a, after)) :
    interrupted unbroken request db = perform request db := by
  have hanswer : (perform request db).1 = (changing name change db).1.map answer := by
    rw [hperform, fst_answering]
  have hstate : (perform request db).2 = (changing name change db).2 := by
    rw [hperform, snd_answering]
  unfold changing at hanswer hstate
  rw [interrupted, checkNeeds_of_some hneeds, transaction_unbroken]
  rw [hchange] at hanswer hstate
  cases hcheck : db.checkStore name with
  | error e =>
    rw [hcheck] at hanswer hstate
    exact (Prod.ext hanswer hstate).symm
  | ok _ =>
    rw [hcheck] at hanswer hstate
    cases hfold : (db.statements request).foldlM Statement.run db with
    | error e =>
      rw [hfold] at hanswer hstate
      exact (Prod.ext hanswer hstate).symm
    | ok after =>
      rw [hfold] at hstate
      exact Prod.ext rfl hstate.symm

theorem foldlM_upsertChunk (store : String) (chunks : List ChunkRecord) (db : Database) :
    (chunks.map (Statement.upsertChunk store)).foldlM Statement.run db =
      addChunks store chunks db := by
  induction chunks generalizing db with
  | nil => rfl
  | cons c rest ih =>
    rw [List.map_cons, List.foldlM_cons, Statement.run]
    unfold addChunks
    split
    · rfl
    · exact ih (db.addChunk store c)

theorem foldlM_deleteChunks (store : String) (ids : List String) (db : Database) :
    (ids.map fun id => Statement.deleteChunks (isChunk store id)).foldlM Statement.run db =
      .ok (db.dropChunks store ids).2 := by
  unfold dropChunks
  generalize 0 = count
  induction ids generalizing db count with
  | nil => rfl
  | cons id rest ih => exact ih (db.dropChunkRows (isChunk store id)) _

theorem foldlM_removal (store : String) (paths : List String) (db : Database) :
    (removal store paths).foldlM Statement.run db = .ok (paths.foldl (fun db path =>
      (db.dropChunkRows fun c => c.store == store && c.path == path).dropDocumentRows
        (isDocument store path)) db) := by
  induction paths generalizing db with
  | nil => rfl
  | cons path rest ih => exact ih _

/-- On a database that does not break down the statements do what the call does. -/
theorem interrupted_unbroken (request : Request) (db : Database) :
    interrupted unbroken request db = perform request db := by
  cases request with
  | createStore store => rfl
  | dropStore store => rfl
  | hasStore store => rfl
  | allStores => rfl
  | findDocument store path => exact interrupted_unbroken_of_reading rfl rfl rfl
  | allDocuments store => exact interrupted_unbroken_of_reading rfl rfl rfl
  | findChunks store ids => exact interrupted_unbroken_of_reading rfl rfl rfl
  | stats store => exact interrupted_unbroken_of_reading rfl rfl rfl
  | putDocument store document => exact interrupted_unbroken_of_changing (a := ()) rfl rfl rfl
  | putChunks store chunks =>
    refine interrupted_unbroken_of_changing (a := ()) rfl rfl ?_
    rw [statements, foldlM_upsertChunk]
  | dropChunks store ids =>
    refine interrupted_unbroken_of_changing (a := (db.dropChunks store ids).1) rfl rfl ?_
    rw [statements, foldlM_deleteChunks]
    rfl
  | dropDocuments store paths =>
    refine interrupted_unbroken_of_changing (a := db.removalsOf store paths) rfl rfl ?_
    rw [statements, foldlM_removal]
    rfl
  | dropDocumentsBelow store start =>
    refine interrupted_unbroken_of_changing
      (a := db.removalsOf store (db.pathsBelow store start)) rfl rfl ?_
    rw [statements, foldlM_removal]
    rfl
  | clear store => exact interrupted_unbroken_of_changing (a := ()) rfl rfl rfl

/-- A call leaves the database as it is, or changes it by its statements. -/
theorem snd_perform_cases (request : Request) (db : Database) :
    (perform request db).2 = db ∨
      (db.statements request).foldlM Statement.run db = .ok (perform request db).2 := by
  rw [← interrupted_unbroken, interrupted]
  cases db.checkNeeds request with
  | error e => exact .inl rfl
  | ok _ =>
    rw [transaction_unbroken]
    cases (db.statements request).foldlM Statement.run db with
    | error e => exact .inl rfl
    | ok after => exact .inr rfl

end Database

end CodeIndex
