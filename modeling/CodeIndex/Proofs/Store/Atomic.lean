import CodeIndex.Proofs.Store.Backends
import CodeIndex.Proofs.Store.Statements

/-!
# Calls are all or nothing

A call of any backend that fails changes nothing.  In memory a call fails before it changes
anything.  On a database a call may fail when some of its statements have been executed, because a
chunk does not fit or because the database breaks down, and is rolled back.  The vector store asks
its service before it turns to its database, and fails with the service.

## Main definitions

* `StoreCall.Atomic` says that a call changes nothing if it fails.
* `Backend.interrupted` makes a call on a backend whose database may break down at any statement.
* `Backend.SameAnswers` says that all reads and searches are answered as before.

## Main results

* `Backend.interrupted_unbroken`: without a breakdown this is what `perform` does.
* `failed_call_changes_nothing`: no call that fails, for whatever reason, can be noticed.
-/

namespace CodeIndex

/-! ## Atomic calls -/

/-- A call that changes nothing if it fails. -/
def StoreCall.Atomic {σ α : Type} (call : StoreCall σ α) : Prop :=
  ∀ s e, (call s).1 = .error e → (call s).2 = s

namespace StoreCall

variable {σ α : Type} {call : StoreCall σ α}

/-- A call that changes nothing at all. -/
theorem Atomic.of_unchanged (h : ∀ s, (call s).2 = s) : call.Atomic := fun s _ _ => h s

/-- A call that never fails. -/
theorem Atomic.of_answered (h : ∀ s, ∃ a, (call s).1 = .ok a) : call.Atomic := by
  intro s e he
  obtain ⟨a, ha⟩ := h s
  rw [ha] at he
  cases he

theorem Atomic.answering (h : call.Atomic) (answer : α → Answer) :
    (call.answering answer).Atomic := by
  intro s e he
  rw [fst_answering] at he
  rw [snd_answering]
  cases hanswer : (call s).1 with
  | ok a =>
    rw [hanswer] at he
    cases he
  | error e' => exact h s e' hanswer

end StoreCall

namespace MemoryStore

variable {α : Type}

theorem atomic_changing (store : String) (change : Collection → α × Collection) :
    (changing store change).Atomic := by
  intro m e he
  unfold changing at he ⊢
  cases hcol : m.stores[store]? with
  | none => rfl
  | some col =>
    rw [hcol] at he
    cases he

theorem atomic_dropChunks (store : String) (ids : List String) :
    (RecordStore.dropChunks store ids : StoreCall MemoryStore Nat).Atomic := by
  intro m e he
  unfold RecordStore.dropChunks instRecordStore at he ⊢
  dsimp only at he ⊢
  split at he
  · cases he
  · next hids =>
    rw [if_neg hids]
    exact atomic_changing store (·.dropChunks ids) m e he

theorem atomic_perform (request : Request) :
    (perform request : StoreCall MemoryStore Answer).Atomic := by
  cases request with
  | createStore | dropStore => exact .answering (.of_answered fun m => ⟨_, rfl⟩) _
  | hasStore | allStores => exact .answering (.of_unchanged fun m => rfl) _
  | findDocument | allDocuments | findChunks | stats =>
    exact .answering (.of_unchanged (snd_reading _ _)) _
  | dropChunks store ids => exact .answering (atomic_dropChunks store ids) _
  | putDocument | putChunks | dropDocuments | dropDocumentsBelow | clear =>
    exact .answering (atomic_changing _ _) _

end MemoryStore

namespace Database

variable {α : Type}

theorem atomic_changing (store : String) (change : Database → Except StoreError (α × Database)) :
    (changing store change).Atomic := by
  intro db e he
  unfold changing at he ⊢
  cases hmade : db.checkStore store >>= fun _ => change db with
  | error e' => rfl
  | ok made =>
    rw [hmade] at he
    cases he

theorem atomic_perform (request : Request) :
    (perform request : StoreCall Database Answer).Atomic := by
  cases request with
  | createStore | dropStore => exact .answering (.of_answered fun db => ⟨_, rfl⟩) _
  | hasStore | allStores | findDocument | allDocuments | findChunks | stats =>
    exact .answering (.of_unchanged fun db => rfl) _
  | putDocument | putChunks | dropChunks | dropDocuments | dropDocumentsBelow | clear =>
    exact .answering (atomic_changing _ _) _

/-- Statements that are all executed are executed as if nothing could break down. -/
theorem execute_eq_unbroken {breaks : Breakdowns} {n : Nat} {statements : List Statement}
    {db : Database} (h : (execute breaks n statements db).1 = .ok ()) :
    execute breaks n statements db = execute unbroken n statements db := by
  induction statements generalizing n db with
  | nil =>
    cases hbreak : breaks n with
    | some e => simp [execute, hbreak] at h
    | none => simp [execute, hbreak, unbroken]
  | cons statement rest ih =>
    cases hbreak : breaks n with
    | some e => simp [execute, hbreak] at h
    | none =>
      cases hrun : statement.run db with
      | error e => simp [execute, hbreak, hrun] at h
      | ok next =>
        simp only [execute, hbreak, hrun, unbroken] at h ⊢
        exact ih h

/-- A transaction is either carried out or undone. -/
theorem transaction_cases (breaks : Breakdowns) (statements : List Statement) (db : Database) :
    transaction breaks statements db = transaction unbroken statements db ∨
      ∃ e, transaction breaks statements db = (.error e, db) := by
  unfold transaction
  cases hanswer : (execute breaks 0 statements db).1 with
  | ok _ => exact .inl (by rw [execute_eq_unbroken hanswer])
  | error e =>
    refine .inr ⟨e, ?_⟩
    generalize execute breaks 0 statements db = executed at hanswer
    obtain ⟨answer, reached⟩ := executed
    obtain rfl : answer = .error e := hanswer
    rfl

/-- A call on a database that may break down is either made, or it fails and is undone. -/
theorem interrupted_cases (breaks : Breakdowns) (request : Request) (db : Database) :
    interrupted breaks request db = perform request db ∨
      ∃ e, interrupted breaks request db = (.error e, db) := by
  rw [← interrupted_unbroken]
  unfold interrupted
  cases db.checkNeeds request with
  | error e => exact .inr ⟨e, rfl⟩
  | ok _ =>
    obtain hmade | ⟨e, hundone⟩ := transaction_cases breaks (db.statements request) db
    · rw [hmade]
      exact .inl rfl
    · rw [hundone]
      exact .inr ⟨e, rfl⟩

theorem atomic_interrupted (breaks : Breakdowns) (request : Request) :
    (interrupted breaks request).Atomic := by
  intro db e he
  obtain hmade | ⟨e', hundone⟩ := interrupted_cases breaks request db
  · rw [hmade] at he ⊢
    exact atomic_perform request db e he
  · rw [hundone]

/-- Only the paths that have a document matter to a deletion. -/
theorem removalsOf_paths_removalsOf (db : Database) (store : String) (paths : List String) :
    db.removalsOf store (db.removalsOf store paths).paths = db.removalsOf store paths := by
  rw [paths_removalsOf]
  unfold removalsOf
  rw [List.foldl_filter]
  refine congrArg (fun step => paths.foldl step ({} : RemovedDocuments)) ?_
  funext removed path
  cases db.documents.any (isDocument store path) <;> rfl

theorem dropDocuments_paths_removalsOf (db : Database) (store : String) (paths : List String) :
    RecordStore.dropDocuments store (db.removalsOf store paths).paths db =
      RecordStore.dropDocuments store paths db := by
  simp only [RecordStore.dropDocuments, changing, dropPaths, removalsOf_paths_removalsOf]

end Database

namespace VectorStore

/-- What a call asks of the service before it turns to the database. -/
def served (s : VectorStore) : Request → Except StoreError Unit
  | .dropStore _ => .error .service
  | .putChunks store chunks => s.records.checkStore store >>= fun _ =>
    if chunks.isEmpty then .ok () else checkPoints chunks >>= fun _ => .error .service
  | .dropChunks store ids => s.records.checkStore store >>= fun _ => askToForget ids
  | .dropDocuments store paths => s.records.checkStore store >>= fun _ =>
    askToForget (s.records.removalsOf store paths).chunkIds
  | .dropDocumentsBelow store start => s.records.checkStore store >>= fun _ =>
    askToForget (s.records.removalsOf store (s.records.pathsBelow store start)).chunkIds
  | .clear store => s.records.checkStore store >>= fun _ => .error .service
  | .createStore _ | .hasStore _ | .allStores | .putDocument _ _ | .findDocument _ _
  | .allDocuments _ | .findChunks _ _ | .stats _ => .ok ()

/-- Make the call that a request describes over a database that may break down. -/
def interrupted (breaks : Breakdowns) (request : Request) : StoreCall VectorStore Answer :=
  fun s => match s.served request with
    | .error e => (.error e, s)
    | .ok () => inRecords (Database.interrupted breaks request) s

theorem answering_inRecords {α : Type} (answer : α → Answer) (call : StoreCall Database α)
    (s : VectorStore) :
    (inRecords call).answering answer s = inRecords (call.answering answer) s := by
  refine Prod.ext ?_ ?_
  · rw [fst_answering]
    exact (fst_answering answer call s.records).symm
  · rw [snd_answering]
    exact congrArg VectorStore.mk (snd_answering answer call s.records).symm

theorem answering_afterService {α : Type} {store : String}
    {part : Database → Except StoreError Unit} (answer : α → Answer) (call : StoreCall Database α)
    (s : VectorStore) :
    (afterService store part call).answering answer s =
      match s.records.checkStore store >>= fun _ => part s.records with
      | .error e => (.error e, s)
      | .ok () => inRecords (call.answering answer) s := by
  unfold afterService StoreCall.answering
  dsimp only
  cases s.records.checkStore store >>= fun _ => part s.records with
  | error e => rfl
  | ok _ => exact answering_inRecords answer call s

theorem inRecords_interrupted_unbroken (request : Request) (s : VectorStore) :
    inRecords (Database.interrupted unbroken request) s = inRecords (perform request) s := by
  unfold inRecords
  rw [Database.interrupted_unbroken]

section Unbroken

variable {s : VectorStore} {request : Request} {α : Type} {answer : α → Answer}
  {call : StoreCall Database α}

/-- A request that the database answers alone. -/
theorem interrupted_unbroken_of_inRecords
    (hrecords : perform request = call.answering answer)
    (hperform : perform request s = (inRecords call).answering answer s)
    (hserved : s.served request = .ok ()) :
    interrupted unbroken request s = perform request s := by
  rw [hperform, answering_inRecords, ← hrecords, ← inRecords_interrupted_unbroken, interrupted,
    hserved]

/-- A request that the service is asked about. -/
theorem interrupted_unbroken_of_afterService {store : String}
    {part : Database → Except StoreError Unit}
    (hperform : perform request s = (afterService store part call).answering answer s)
    (hrecords : perform request s.records = call.answering answer s.records)
    (hserved : s.served request = s.records.checkStore store >>= fun _ => part s.records) :
    interrupted unbroken request s = perform request s := by
  have hinner : inRecords (call.answering answer) s = inRecords (perform request) s := by
    unfold inRecords
    rw [hrecords]
  rw [hperform, answering_afterService, ← hserved, hinner, ← inRecords_interrupted_unbroken,
    interrupted]

/-- A request that removes documents. -/
theorem interrupted_unbroken_of_dropPathsOf {store : String} {paths : Database → List String}
    (hrecords : perform request s.records =
      (RecordStore.dropDocuments store (paths s.records)).answering .removed s.records)
    (hperform : perform request s = (dropPathsOf store paths).answering .removed s)
    (hserved : s.served request = s.records.checkStore store >>= fun _ =>
      askToForget (s.records.removalsOf store (paths s.records)).chunkIds) :
    interrupted unbroken request s = perform request s := by
  have hafter : perform request s = (afterService store
      (fun db => askToForget (db.removalsOf store (paths db)).chunkIds)
      (RecordStore.dropDocuments store
        (s.records.removalsOf store (paths s.records)).paths)).answering .removed s := hperform
  refine interrupted_unbroken_of_afterService hafter ?_ hserved
  rw [hrecords]
  unfold StoreCall.answering
  rw [Database.dropDocuments_paths_removalsOf]

end Unbroken

theorem interrupted_unbroken (request : Request) (s : VectorStore) :
    interrupted unbroken request s = perform request s := by
  cases request with
  | createStore | hasStore | allStores | dropStore => rfl
  | putDocument | findDocument | allDocuments | findChunks | stats =>
    exact interrupted_unbroken_of_inRecords rfl rfl rfl
  | putChunks | dropChunks | clear => exact interrupted_unbroken_of_afterService rfl rfl rfl
  | dropDocuments | dropDocumentsBelow => exact interrupted_unbroken_of_dropPathsOf rfl rfl rfl

/-- A call is either made, or it fails and changes nothing. -/
theorem atomic_interrupted (breaks : Breakdowns) (request : Request) :
    (interrupted breaks request).Atomic := by
  intro s e he
  unfold interrupted at he ⊢
  cases hserved : s.served request with
  | error e' => rfl
  | ok _ =>
    rw [hserved] at he
    have hrecords : (Database.interrupted breaks request s.records).2 = s.records :=
      Database.atomic_interrupted breaks request s.records e he
    simp only [inRecords, hrecords]

end VectorStore

/-! ## All backends -/

namespace Backend

/-- Make the call that a request describes on a backend whose database, if it has one, may break
down. -/
def interrupted (breaks : Breakdowns) (request : Request) : StoreCall Backend Answer
  | memory m => ((perform request m).1, memory (perform request m).2)
  | relational db =>
    let (answer, after) := Database.interrupted breaks request db
    (answer, relational after)
  | vector s =>
    let (answer, after) := VectorStore.interrupted breaks request s
    (answer, vector after)

/-- Every read of every store and every full-text search is answered as before. -/
structure SameAnswers (b b' : Backend) : Prop where
  reads : ∀ read : Request, read.IsRead → (perform read b').1 = (perform read b).1
  search : ∀ store query limit, b'.database?.map (·.matching store query limit) =
    b.database?.map (·.matching store query limit)

theorem SameAnswers.refl (b : Backend) : b.SameAnswers b where
  reads _ _ := rfl
  search _ _ _ := rfl

/-- On a database that does not break down this is the call itself. -/
theorem interrupted_unbroken (request : Request) (b : Backend) :
    interrupted unbroken request b = perform request b := by
  cases b with
  | memory m => exact (perform_wrap wraps_memory request m).symm
  | relational db =>
    rw [perform_wrap wraps_relational, ← Database.interrupted_unbroken]
    rfl
  | vector s =>
    rw [perform_wrap wraps_vector, ← VectorStore.interrupted_unbroken]
    rfl

theorem atomic_interrupted (breaks : Breakdowns) (request : Request) :
    (interrupted breaks request).Atomic := by
  intro b e he
  cases b with
  | memory m => exact congrArg memory (MemoryStore.atomic_perform request m e he)
  | relational db => exact congrArg relational (Database.atomic_interrupted breaks request db e he)
  | vector s => exact congrArg vector (VectorStore.atomic_interrupted breaks request s e he)

end Backend

/-- **Calls are all or nothing.**  On every backend, in every state, a call that answers with an
error leaves every read of every store and every search as it was.  This is also so if the database
breaks down between two statements of the call, or at the end of its transaction. -/
theorem failed_call_changes_nothing (b : Backend) (request : Request) :
    (∀ e, (perform request b).1 = .error e → b.SameAnswers (perform request b).2) ∧
      ∀ breaks e, (b.interrupted breaks request).1 = .error e →
        b.SameAnswers (b.interrupted breaks request).2 := by
  have hsame : ∀ breaks e, (b.interrupted breaks request).1 = .error e →
      b.SameAnswers (b.interrupted breaks request).2 := by
    intro breaks e he
    rw [Backend.atomic_interrupted breaks request b e he]
    exact .refl b
  refine ⟨fun e he => ?_, hsame⟩
  rw [← Backend.interrupted_unbroken] at he ⊢
  exact hsame unbroken e he

/-- A chunk, with the number of its first line. -/
def lateChunk (startLine : Nat) : ChunkRecord :=
  { chunkId := "6ef08366e958d01d", documentId := "0d3bb67577b16a9c", path := "a.txt",
    language := "unknown", nodeType := "", startLine, endLine := 1, content := "x" }

/-- A database with a store. -/
def lateDatabase : Database := { stores := ["s"] }

/-- A batch whose second chunk does not fit. -/
def lateBatch : Request := .putChunks "s" [lateChunk 1, lateChunk (2 ^ 63)]

/-- When the second chunk is refused the first has been written. -/
example : (Database.execute unbroken 0 (lateDatabase.statements lateBatch)
    lateDatabase).2.chunks.length = 1 := by decide +kernel

theorem failed_call_changes_nothing_sample :
    (perform lateBatch (Backend.relational lateDatabase)).1 = .error .integerRange ∧
      (Backend.relational lateDatabase).SameAnswers
        (perform lateBatch (Backend.relational lateDatabase)).2 ∧
      (Backend.relational lateDatabase).SameAnswers ((Backend.relational lateDatabase).interrupted
        (fun n => if n = 1 then some .database else none) lateBatch).2 := by
  have hrefused : (perform lateBatch (Backend.relational lateDatabase)).1 =
      .error .integerRange := rfl
  have hbroken : ((Backend.relational lateDatabase).interrupted
      (fun n => if n = 1 then some .database else none) lateBatch).1 = .error .database := rfl
  obtain ⟨hsame, hinterrupted⟩ :=
    failed_call_changes_nothing (Backend.relational lateDatabase) lateBatch
  exact ⟨hrefused, hsame _ hrefused, hinterrupted _ _ hbroken⟩

end CodeIndex
