import CodeIndex.Proofs.Index.Lifecycle
import CodeIndex.Proofs.Store.Isolation

/-!
# Operations keep to their store

An operation of the index makes calls on the store that it concerns and on no other.  So whatever
the calls on that store keep, the operation keeps, however it ends; with what `Backend.isolates`
says about the calls, the other stores are left as they were.

## Main definitions

* `Confines` says that a relation between states survives the calls on one store.
* `Confined` says that it survives an operation.

## Main results

* `Confines.run` and `Confines.history`: it survives all operations on the store.
* `stores_are_isolated`: nothing that is done to one store can be seen in another.
-/

namespace CodeIndex

open Indexing ScriptedStore

/-- A relation between an earlier and a later state that survives every call on one store. -/
structure Confines {σ : Type} [RecordStore σ] (R : σ → σ → Prop) (name : String) : Prop where
  refl : ∀ s, R s s
  trans : ∀ {s s' s''}, R s s' → R s' s'' → R s s''
  perform : ∀ request : Request, request.store? = some name → ∀ s, R s (perform request s).2

theorem Isolates.confines {σ : Type} [RecordStore σ] (h : Isolates σ) {a b : String}
    (hne : a ≠ b) : Confines (SameReads b : σ → σ → Prop) a where
  refl := .refl b
  trans := .trans
  perform request hstore := h request a b hstore hne

/-- A relation between stores that an operation keeps, whether it succeeds or fails. -/
def Indexing.Confined {σ α : Type} (R : σ → σ → Prop) (operation : Indexing σ α) : Prop :=
  ∀ st, R st.store (outcome operation st).2.store

namespace Indexing.Confined

variable {σ α β : Type} {R : σ → σ → Prop} {operation : Indexing σ α}

theorem map (h : Confined R operation) (f : α → β) : Confined R (f <$> operation) := by
  intro st
  rw [outcome_map]
  exact h st

theorem attempt (h : Confined R operation) : Confined R (attempt operation) := h

theorem discard (h : Confined R operation) : Confined R (discard operation) :=
  h.map (Function.const α PUnit.unit)

end Indexing.Confined

namespace Confines

variable {σ α β : Type} [RecordStore σ] {R : σ → σ → Prop} {name : String} (h : Confines R name)

include h

/-! ## Calls -/

theorem snd_call {call : StoreCall σ α} {answer : α → Answer} (request : Request)
    (hrequest : CodeIndex.perform request = call.answering answer)
    (hstore : request.store? = some name) (s : σ) : R s (call s).2 := by
  have hkept := h.perform request hstore s
  rwa [hrequest, snd_answering] at hkept

/-- A call that may fail by a script keeps what the call keeps. -/
theorem snd_scripted {call : StoreCall σ α} (hcall : ∀ s, R s (call s).2) (method : Method)
    (answer : α → Answer) (s : ScriptedStore σ) :
    R s.store ((ScriptedStore.scripted method call).answering answer s).2.store := by
  rw [snd_answering, store_scripted]
  obtain hjudged | ⟨e, -, hjudged⟩ | ⟨e, a, -, -, hjudged⟩ :=
    judged_cases (s.script s.calls method) call s.store
  · rw [hjudged]
    exact hcall s.store
  · rw [hjudged]
    exact h.refl s.store
  · rw [hjudged]
    exact hcall s.store

/-- Failing calls do not reach further than others. -/
theorem scripted : Confines (fun s s' : ScriptedStore σ => R s.store s'.store) name where
  refl s := h.refl s.store
  trans := h.trans
  perform request hstore s := by
    cases request with
    | allStores => cases hstore
    | createStore | hasStore | dropStore | putDocument | putChunks | findDocument | allDocuments
    | findChunks | dropChunks | dropDocuments | dropDocumentsBelow | clear | stats =>
      exact h.snd_scripted (h.snd_call _ rfl hstore) _ _ s

/-! ## Parts of operations -/

theorem storeless {operation : Indexing σ α} (hoperation : Storeless operation) :
    Confined R operation := by
  intro st
  rw [hoperation st]
  exact h.refl st.store

theorem pure (a : α) : Confined R (Pure.pure a : Indexing σ α) := h.storeless (storeless_pure a)

theorem bind {first : Indexing σ α} {next : α → Indexing σ β} (hfirst : Confined R first)
    (hnext : ∀ a, Confined R (next a)) : Confined R (first >>= next) := by
  intro st
  have hkept := hfirst st
  rw [outcome_bind]
  generalize outcome first st = made at hkept
  obtain ⟨answer, middle⟩ := made
  cases answer with
  | ok a => exact h.trans hkept (hnext a middle)
  | error e => exact hkept

theorem call {call : StoreCall σ α} {answer : α → Answer} (request : Request)
    (hrequest : CodeIndex.perform request = call.answering answer)
    (hstore : request.store? = some name) : Confined R (Indexing.call call) := by
  intro st
  rw [outcome_call]
  exact h.snd_call request hrequest hstore st.store

/-! ## Operations -/

theorem checkExists : Confined R (Indexer.checkExists name : Indexing σ Unit) := by
  refine h.bind (h.call (.hasStore name) rfl rfl) fun there => ?_
  split
  · exact h.storeless (storeless_throw _)
  · exact h.pure _

theorem writing {ids : List String} {request : StoreCall σ Unit}
    (hrequest : Confined R (Indexing.call request)) :
    Confined R (Indexer.writing name ids request) := by
  refine h.bind hrequest.attempt fun answer => ?_
  cases answer with
  | ok _ => exact h.pure _
  | error e =>
    refine h.bind ?_ fun _ => h.storeless (storeless_throw e)
    exact (h.call (.dropChunks name ids) rfl rfl).attempt.discard

theorem writeFile (file : SourceFile) (records : List ChunkRecord) :
    Confined R (Indexer.writeFile name file records : Indexing σ FileOutcome) := by
  refine h.bind (h.writing (h.call (.putChunks name records) rfl rfl)) fun _ => ?_
  refine h.bind (h.storeless fun st => rfl) fun st => ?_
  refine h.bind (h.writing ?_) fun _ => h.pure _
  exact h.call (.putDocument name (file.document st.now)) rfl rfl

theorem replaceFile (file : SourceFile) (existing : Option DocumentRecord)
    (records : List ChunkRecord) :
    Confined R (Indexer.replaceFile name file existing records : Indexing σ FileOutcome) := by
  unfold Indexer.replaceFile
  split
  · refine h.bind ?_ fun _ => h.writeFile file records
    exact (h.call (.dropDocuments name [file.path]) rfl rfl).discard
  · exact h.writeFile file records

theorem indexFile (indexer : Indexer) (force : Bool) (file : SourceFile) :
    Confined R (indexer.indexFile name force file : Indexing σ FileOutcome) := by
  rw [Indexer.indexFile_eq]
  refine h.bind (h.storeless fun st => rfl) fun _ => ?_
  refine h.bind (h.call (.findDocument name file.path) rfl rfl) fun existing => ?_
  split
  · exact h.pure _
  · refine h.bind (h.storeless (indexer.storeless_records _ _ _ _)) fun records => ?_
    refine h.bind (h.storeless storeless_checkpoint) fun _ => ?_
    exact h.replaceFile file existing records

theorem indexBatch (indexer : Indexer) (force : Bool) (report : IndexReport)
    (files : List SourceFile) :
    Confined R (indexer.indexBatch name force report files : Indexing σ IndexReport) := by
  induction files generalizing report with
  | nil => exact h.pure report
  | cons file rest ih =>
    refine h.bind (h.storeless storeless_checkpoint) fun _ => ?_
    refine h.bind (h.indexFile indexer force file).attempt fun answer => ?_
    cases answer with
    | ok outcome => exact ih (report.record outcome)
    | error e =>
      dsimp only
      split
      · exact h.storeless (storeless_throw e)
      · exact ih (report.recordFailure file.path e.message)

theorem addFiles (indexer : Indexer) (force : Bool) (files : List SourceFile) :
    Confined R (indexer.addFiles name force files : Indexing σ IndexReport) :=
  h.bind h.checkExists fun _ => h.indexBatch indexer force _ files

theorem rebuild (indexer : Indexer) (files : List SourceFile) :
    Confined R (indexer.rebuild name files : Indexing σ IndexReport) :=
  h.bind h.checkExists fun _ =>
    h.bind (h.call (.clear name) rfl rfl) fun _ => h.indexBatch indexer true _ files

theorem removeFiles (paths : List String) (start : Option String) :
    Confined R (Indexer.removeFiles name paths start : Indexing σ DeleteReport) := by
  refine h.bind (h.call (.hasStore name) rfl rfl) fun there => ?_
  split
  · exact h.pure _
  · refine h.bind (h.call (.dropDocuments name paths) rfl rfl) fun named => ?_
    split
    · exact h.bind (h.pure named) fun _ => h.pure _
    · next text _ =>
      refine h.bind ?_ fun _ => h.pure _
      exact (h.call (.dropDocumentsBelow name text) rfl rfl).map named.merge

theorem syncMissing (isPresent : String → Bool) :
    Confined R (Indexer.syncMissing name isPresent : Indexing σ SyncReport) := by
  refine h.bind h.checkExists fun _ => ?_
  refine h.bind (h.call (.allDocuments name) rfl rfl) fun documents => ?_
  dsimp only
  split
  · exact h.pure _
  · exact h.bind (h.call (.dropDocuments name _) rfl rfl) fun _ => h.pure _

theorem stats : Confined R (Indexer.stats name : Indexing σ StoreStats) :=
  h.call (.stats name) rfl rfl

/-- Every operation on the store keeps what the calls on the store keep. -/
theorem run (indexer : Indexer) {operation : Operation} (hstore : operation.store = name) :
    Confined R (operation.run indexer : Indexing σ Reply) := by
  subst hstore
  cases operation with
  | createStore store => exact (h.call (.createStore store) rfl rfl).map _
  | dropStore store => exact (h.call (.dropStore store) rfl rfl).map _
  | addFiles store force files => exact (h.addFiles indexer force files).map _
  | rebuild store files => exact (h.rebuild indexer files).map _
  | removeFiles store paths start => exact (h.removeFiles paths start).map _
  | syncDeleted store current => exact (h.syncMissing current.contains).map _
  | syncMissing store isPresent => exact (h.syncMissing isPresent).map _

theorem make (indexer : Indexer) {call : IndexCall} (hstore : call.operation.store = name)
    (st : IndexState σ) : R st.store (call.make indexer st).2.store :=
  h.run indexer hstore { st with token := call.token, now := call.now }

/-- So does a history of operations on the store. -/
theorem history (indexer : Indexer) {calls : List IndexCall}
    (hstore : ∀ call ∈ calls, call.operation.store = name) (st : IndexState σ) :
    R st.store (CodeIndex.history indexer calls st).2.store := by
  induction calls generalizing st with
  | nil => exact h.refl st.store
  | cons call rest ih =>
    obtain ⟨hcall, hrest⟩ := List.forall_mem_cons.1 hstore
    exact h.trans (h.make indexer hcall st) (ih hrest (call.make indexer st).2)

end Confines

/-- **Stores are isolated.**  On every backend, in every state, for two different store names: no
request on the first store, and no operation of the index on it, whichever store calls fail and
whenever it is cancelled, changes the answer to any read of the second one. -/
theorem stores_are_isolated {a b : String} (hne : a ≠ b) :
    (∀ (backend : Backend) (request : Request), request.store? = some a →
        SameReads b backend (perform request backend).2) ∧
      ∀ (indexer : Indexer) (st : IndexState (ScriptedStore Backend)),
        (∀ call : IndexCall, call.operation.store = a →
          SameReads b st.store.store (call.make indexer st).2.store.store) ∧
        SameReads b st.store.store (outcome (Indexer.stats a) st).2.store.store := by
  have hcalls : Confines (SameReads b : Backend → Backend → Prop) a := Backend.isolates.confines hne
  refine ⟨fun backend request hstore => hcalls.perform request hstore backend,
    fun indexer st => ⟨fun call hstore => ?_, ?_⟩⟩
  · exact hcalls.scripted.make indexer hstore st
  · exact hcalls.scripted.stats st

/-- A database with two stores, in which the same document stands. -/
def sharedTables : IndexState (ScriptedStore Backend) where
  store := {
    store := after (stockingRequests "a" ++ stockingRequests "b") (.fresh .relational)
    script := allPass }

/-- A removal of the document from the first of them. -/
def removalFromOne : IndexCall := { operation := .removeFiles "a" ["a.txt"] none }

theorem stores_are_isolated_sample :
    (documentAt (removalFromOne.make windowing sharedTables).2.store.store "a" "a.txt").isNone =
        true ∧
      (documentAt sharedTables.store.store "b" "a.txt").isSome = true ∧
      SameReads "b" sharedTables.store.store
        (removalFromOne.make windowing sharedTables).2.store.store ∧
      SameReads "b" sharedTables.store.store
        (perform (.dropDocumentsBelow "a" "a") sharedTables.store.store).2 := by
  obtain ⟨hrequest, hoperation⟩ := stores_are_isolated (by decide : "a" ≠ "b")
  refine ⟨by decide +kernel, by decide +kernel, ?_, ?_⟩
  · exact (hoperation windowing sharedTables).1 removalFromOne rfl
  · exact hrequest sharedTables.store.store (.dropDocumentsBelow "a" "a") rfl

end CodeIndex
