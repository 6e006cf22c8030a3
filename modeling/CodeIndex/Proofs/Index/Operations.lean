import CodeIndex.Proofs.Index.BatchRun

/-!
# What the operations of the index do

The seven operations by which the index changes its stores, as data, and the histories that they
make.  An operation concerns the store of one name.  `OperationRun` lists what comes of it for the
shelf of that store, whichever store calls fail.

## Main definitions

* `Operation` is an operation, `Reply` what it answers with, and `IndexCall` an operation with the
  token and the time that it is given.
* `history` makes calls one after the other.
* `OperationRun` are the ways in which an operation can end.

## Main results

* `operationRun_run`: there are no others, and the other stores stay as they are.
-/

namespace CodeIndex

open Indexing ScriptedStore
open LawfulStore (Valid)

/-- An operation that changes a store. -/
inductive Operation where
  | createStore (store : String)
  | dropStore (store : String)
  | addFiles (store : String) (force : Bool) (files : List SourceFile)
  | rebuild (store : String) (files : List SourceFile)
  | removeFiles (store : String) (paths : List String) (start : Option String)
  | syncDeleted (store : String) (current : List String)
  | syncMissing (store : String) (isPresent : String → Bool)

/-- What an operation answers with. -/
inductive Reply where
  | done
  | indexed (report : IndexReport)
  | removed (report : DeleteReport)
  | synced (report : SyncReport)
deriving DecidableEq

namespace Operation

/-- The store that the operation concerns. -/
def store : Operation → String
  | createStore store | dropStore store | addFiles store _ _ | rebuild store _
  | removeFiles store _ _ | syncDeleted store _ | syncMissing store _ => store

/-- The files that the operation brings in. -/
def files : Operation → List SourceFile
  | addFiles _ _ files | rebuild _ files => files
  | _ => []

/-- Operations that fail if there is no such store. -/
def NeedsStore : Operation → Prop
  | addFiles _ _ _ | rebuild _ _ | syncDeleted _ _ | syncMissing _ _ => True
  | createStore _ | dropStore _ | removeFiles _ _ _ => False

/-- Run the operation. -/
def run {σ : Type} [RecordStore σ] (indexer : Indexer) : Operation → Indexing σ Reply
  | createStore store => (fun _ => .done) <$> call (RecordStore.createStore store)
  | dropStore store => (fun _ => .done) <$> call (RecordStore.dropStore store)
  | addFiles store force files => .indexed <$> indexer.addFiles store force files
  | rebuild store files => .indexed <$> indexer.rebuild store files
  | removeFiles store paths start => .removed <$> Indexer.removeFiles store paths start
  | syncDeleted store current => .synced <$> Indexer.syncDeleted store current
  | syncMissing store isPresent => .synced <$> Indexer.syncMissing store isPresent

/-- The paths that a deletion removes. -/
def removes (startsWith : String → String → Bool) (paths : List String) (start : Option String)
    (path : String) : Bool :=
  paths.contains path || (start.filter (!·.isEmpty)).any (startsWith · path)

theorem removes_of_filter_eq_none {startsWith : String → String → Bool} {paths : List String}
    {start : Option String} (h : start.filter (!·.isEmpty) = none) :
    removes startsWith paths start = paths.contains := by
  funext path
  rw [removes, h, Option.any_none, Bool.or_false]

theorem removes_of_filter_eq_some {startsWith : String → String → Bool} {paths : List String}
    {start : Option String} {text : String} (h : start.filter (!·.isEmpty) = some text) :
    removes startsWith paths start = fun path => paths.contains path || startsWith text path := by
  funext path
  rw [removes, h, Option.any_some]

end Operation

/-- An operation with what it is given from outside. -/
structure IndexCall where
  operation : Operation
  token : Cancellation := .never
  /-- The time that documents are stamped with. -/
  now : Int := 0

/-- Make a call. -/
def IndexCall.make {σ : Type} [RecordStore σ] (indexer : Indexer) (call : IndexCall)
    (st : IndexState σ) : Except IndexError Reply × IndexState σ :=
  outcome (call.operation.run indexer) { st with token := call.token, now := call.now }

/-- Make calls one after the other, and collect the answers. -/
def history {σ : Type} [RecordStore σ] (indexer : Indexer) :
    List IndexCall → IndexState σ → List (Except IndexError Reply) × IndexState σ
  | [], st => ([], st)
  | call :: rest, st =>
    let made := call.make indexer st
    let later := history indexer rest made.2
    (made.1 :: later.1, later.2)

/-- The answer, the shelf and the number of failing calls with which an operation can end. -/
inductive OperationRun (indexer : Indexer) (script : FaultScript)
    (startsWith : String → String → Bool) :
    Operation → Option Shelf → Except IndexError Reply → Option Shelf → Nat → Prop
  | created {store : String} {before : Option Shelf} :
      OperationRun indexer script startsWith (.createStore store) before (.ok .done)
        (some (before.getD {})) 0
  | createdLate {store : String} {before : Option Shelf} {e : StoreError} :
      OperationRun indexer script startsWith (.createStore store) before (.error (.ofStore e))
        (some (before.getD {})) 1
  | dropped {store : String} {before : Option Shelf} :
      OperationRun indexer script startsWith (.dropStore store) before (.ok .done) none 0
  | droppedLate {store : String} {before : Option Shelf} {e : StoreError} :
      OperationRun indexer script startsWith (.dropStore store) before (.error (.ofStore e)) none 1
  /-- A store call failed before anything was changed. -/
  | failed {operation : Operation} {before : Option Shelf} {e : StoreError} {failed : Nat} :
      OperationRun indexer script startsWith operation before (.error (.ofStore e)) before
        (failed + 1)
  /-- There is no such store. -/
  | missing {operation : Operation} : operation.NeedsStore →
      OperationRun indexer script startsWith operation none (.error (.notFound operation.store))
        none 0
  | added {store : String} {force : Bool} {files : List SourceFile} {before after : Shelf}
      {outcomes : Except IndexError (List FileOutcome)} {failed : Nat} :
      BatchRun indexer script force files before outcomes after failed →
      OperationRun indexer script startsWith (.addFiles store force files) (some before)
        (outcomes.map fun outcomes => .indexed (outcomes.foldl .record { store })) (some after)
        failed
  | rebuilt {store : String} {files : List SourceFile} {before after : Shelf}
      {outcomes : Except IndexError (List FileOutcome)} {failed : Nat} :
      BatchRun indexer script true files {} outcomes after failed →
      OperationRun indexer script startsWith (.rebuild store files) (some before)
        (outcomes.map fun outcomes => .indexed (outcomes.foldl .record { store })) (some after)
        failed
  | clearedLate {store : String} {files : List SourceFile} {before : Shelf} {e : StoreError} :
      OperationRun indexer script startsWith (.rebuild store files) (some before)
        (.error (.ofStore e)) (some {}) 1
  | absent {store : String} {paths : List String} {start : Option String} :
      OperationRun indexer script startsWith (.removeFiles store paths start) none
        (.ok (.removed {})) none 0
  | removed {store : String} {paths : List String} {start : Option String} {before : Shelf}
      {report : DeleteReport} :
      OperationRun indexer script startsWith (.removeFiles store paths start) (some before)
        (.ok (.removed report))
        (some (before.dropWhere (Operation.removes startsWith paths start))) 0
  | synced {store : String} {isPresent : String → Bool} {before : Shelf} {report : SyncReport} :
      OperationRun indexer script startsWith (.syncMissing store isPresent) (some before)
        (.ok (.synced report)) (some (before.dropWhere (!isPresent ·))) 0
  /-- Some documents have been removed when a store call failed. -/
  | dropsLate {operation : Operation} {before : Shelf} {drop : String → Bool} {e : StoreError}
      {failed : Nat} :
      OperationRun indexer script startsWith operation (some before) (.error (.ofStore e))
        (some (before.dropWhere drop)) (failed + 1)
  | syncedDeleted {store : String} {current : List String} {before after : Option Shelf}
      {answer : Except IndexError Reply} {failed : Nat} :
      OperationRun indexer script startsWith (.syncMissing store current.contains) before answer
        after failed →
      OperationRun indexer script startsWith (.syncDeleted store current) before answer after failed

namespace Indexer

variable {σ : Type} [RecordStore σ] [LawfulStore σ] {indexer : Indexer} {name : String}
  {st st' : IndexState (ScriptedStore σ)}

/-- A run that starts with a look whether the store is there. -/
theorem outcome_checkExists_cases {α : Type} {next : Unit → Indexing (ScriptedStore σ) α}
    {answer : Except IndexError α} (hst : Valid st.store.store)
    (h : outcome (checkExists name >>= next) st = (answer, st')) :
    (∃ shelf middle, held st.store.store name = some shelf ∧
        Moves name (some shelf) 0 st.store middle.store ∧
        outcome (next ()) middle = (answer, st')) ∨
      (answer = .error (.notFound name) ∧ held st.store.store name = none ∧
        Moves name none 0 st.store st'.store) ∨
      ∃ e, answer = .error (.ofStore e) ∧
        Moves name (held st.store.store name) 1 st.store st'.store := by
  rw [checkExists, bind_assoc] at h
  obtain ⟨st₁, hmoves, h⟩ | ⟨e, rfl, hmoves⟩ := outcome_hasStore_cases hst h
  · cases hheld : held st.store.store name with
    | none =>
      rw [hheld] at h hmoves
      obtain ⟨rfl, rfl⟩ := Prod.mk.inj h
      exact .inr (.inl ⟨rfl, rfl, hmoves⟩)
    | some shelf =>
      rw [hheld] at h hmoves
      exact .inl ⟨shelf, st₁, rfl, hmoves, h⟩
  · exact .inr (.inr ⟨e, rfl, hmoves⟩)

theorem map_foldl_record {name : String} (outcomes : Except IndexError (List FileOutcome)) :
    (outcomes.map fun outcomes => Reply.indexed (outcomes.foldl .record { store := name })) =
      (outcomes.map fun outcomes => outcomes.foldl IndexReport.record { store := name }).map
        Reply.indexed := by
  cases outcomes <;> rfl

section Runs

variable {answer : Except IndexError Reply} (hst : Valid st.store.store)

include hst

/-- An operation that starts with a look whether the store is there. -/
theorem operationRun_of_checkExists {α : Type} {operation : Operation} {reply : α → Reply}
    {next : Unit → Indexing (ScriptedStore σ) α} (hneeds : operation.NeedsStore)
    (hstore : operation.store = name)
    (hnext : ∀ {shelf : Shelf} {st₁ st' : IndexState (ScriptedStore σ)}
        {found : Except IndexError α},
      Valid st₁.store.store → held st₁.store.store name = some shelf →
      outcome (next ()) st₁ = (found, st') → ∃ after failed,
        OperationRun indexer st₁.store.script (LawfulStore.startsWith σ) operation (some shelf)
          (found.map reply) after failed ∧ Moves name after failed st₁.store st'.store)
    (h : outcome (reply <$> (checkExists name >>= next)) st = (answer, st')) :
    ∃ after failed, OperationRun indexer st.store.script (LawfulStore.startsWith σ) operation
        (held st.store.store name) answer after failed ∧
      Moves name after failed st.store st'.store := by
  obtain ⟨found, hrun, rfl⟩ := outcome_map_cases h
  obtain ⟨shelf, st₁, hheld, hmoves, hrest⟩ | ⟨rfl, hheld, hmoves⟩ | ⟨e, rfl, hmoves⟩ :=
    outcome_checkExists_cases hst hrun
  · obtain ⟨after, failed, hoperation, hmoves'⟩ := hnext hmoves.valid hmoves.held_self hrest
    rw [hmoves.script] at hoperation
    rw [hheld]
    exact ⟨after, failed, hoperation, hmoves.followed hmoves'⟩
  · subst hstore
    rw [hheld]
    exact ⟨none, 0, .missing hneeds, hmoves⟩
  · exact ⟨_, 1, .failed, hmoves⟩

theorem operationRun_addFiles {force : Bool} {files : List SourceFile}
    (h : outcome ((Operation.addFiles name force files).run indexer) st = (answer, st')) :
    ∃ after failed, OperationRun indexer st.store.script (LawfulStore.startsWith σ)
        (.addFiles name force files) (held st.store.store name) answer after failed ∧
      Moves name after failed st.store st'.store := by
  refine operationRun_of_checkExists hst trivial rfl (fun hst₁ hheld hbatch => ?_) h
  obtain ⟨outcomes, after, failed, hrun, rfl, hmoves⟩ := batchRun_indexBatch hst₁ hheld hbatch
  exact ⟨some after, failed, map_foldl_record outcomes ▸ .added hrun, hmoves⟩

theorem operationRun_rebuild {files : List SourceFile}
    (h : outcome ((Operation.rebuild name files).run indexer) st = (answer, st')) :
    ∃ after failed, OperationRun indexer st.store.script (LawfulStore.startsWith σ)
        (.rebuild name files) (held st.store.store name) answer after failed ∧
      Moves name after failed st.store st'.store := by
  refine operationRun_of_checkExists hst trivial rfl (fun hst₁ hheld hrest => ?_) h
  obtain ⟨_, st₂, hcleared, hbatch⟩ | ⟨e, after, rfl, hend, hmoves⟩ :=
    outcome_change_cases (LawfulStore.clear name) hst₁ hheld hrest
  · obtain ⟨outcomes, after, failed, hrun, rfl, hmoves⟩ :=
      batchRun_indexBatch hcleared.valid hcleared.held_self hbatch
    rw [hcleared.script] at hrun
    exact ⟨some after, failed, map_foldl_record outcomes ▸ .rebuilt hrun,
      hcleared.followed hmoves⟩
  · cases hend with
    | early _ => exact ⟨_, 1, .failed, hmoves⟩
    | late _ => exact ⟨_, 1, .clearedLate, hmoves⟩

theorem operationRun_createStore
    (h : outcome ((Operation.createStore name).run indexer) st = (answer, st')) :
    ∃ after failed, OperationRun indexer st.store.script (LawfulStore.startsWith σ)
        (.createStore name) (held st.store.store name) answer after failed ∧
      Moves name after failed st.store st'.store := by
  rw [Operation.run, outcome_map, outcome_call] at h
  obtain ⟨rfl, rfl⟩ := Prod.mk.inj h
  obtain ⟨hanswer, hmoves⟩ | ⟨e, hanswer, hmoves | hmoves⟩ := createStore_scripted name hst
  all_goals rw [hanswer]
  · exact ⟨_, 0, .created, hmoves⟩
  · exact ⟨_, 1, .failed, hmoves⟩
  · exact ⟨_, 1, .createdLate, hmoves⟩

theorem operationRun_dropStore
    (h : outcome ((Operation.dropStore name).run indexer) st = (answer, st')) :
    ∃ after failed, OperationRun indexer st.store.script (LawfulStore.startsWith σ)
        (.dropStore name) (held st.store.store name) answer after failed ∧
      Moves name after failed st.store st'.store := by
  rw [Operation.run, outcome_map, outcome_call] at h
  obtain ⟨rfl, rfl⟩ := Prod.mk.inj h
  obtain ⟨hanswer, hmoves⟩ | ⟨e, hanswer, hmoves | hmoves⟩ := dropStore_scripted name hst
  all_goals rw [hanswer]
  · exact ⟨_, 0, .dropped, hmoves⟩
  · exact ⟨_, 1, .failed, hmoves⟩
  · exact ⟨_, 1, .droppedLate, hmoves⟩

theorem operationRun_syncMissing {isPresent : String → Bool}
    (h : outcome ((Operation.syncMissing name isPresent).run indexer) st = (answer, st')) :
    ∃ after failed, OperationRun indexer st.store.script (LawfulStore.startsWith σ)
        (.syncMissing name isPresent) (held st.store.store name) answer after failed ∧
      Moves name after failed st.store st'.store := by
  refine operationRun_of_checkExists hst trivial rfl
    (fun {before st₁ st' found} hst₁ hheld hrest => ?_) h
  obtain ⟨documents, st₂, hall, hread, hrest⟩ | ⟨e, rfl, hmoves⟩ :=
    outcome_read_cases (LawfulStore.allDocuments name) hst₁ hheld hrest
  swap
  · exact ⟨_, 1, .failed, hmoves⟩
  have hstale := Shelf.dropDocuments_filter
    (fun path => path_mem_of_listsAll hst₁ hheld hall) (!isPresent ·)
  dsimp only at hrest
  split at hrest
  · next hempty =>
    obtain ⟨rfl, rfl⟩ := Prod.mk.inj hrest
    rw [List.isEmpty_iff] at hempty
    have hsame : before = before.dropWhere (!isPresent ·) := by
      rw [← hstale, hempty]
      exact (Shelf.dropWhere_false before).symm
    refine ⟨some before, 0, ?_, hread⟩
    nth_rewrite 2 [hsame]
    exact .synced
  · obtain ⟨removed, st₃, hdropped, hrest⟩ | ⟨e, after, rfl, hend, hmoves⟩ :=
      outcome_change_cases (LawfulStore.dropDocuments name _) hread.valid hread.held_self hrest
    · obtain ⟨rfl, rfl⟩ := Prod.mk.inj hrest
      rw [hstale] at hdropped
      exact ⟨_, 0, .synced, hread.followed hdropped⟩
    · cases hend with
      | early _ => exact ⟨_, 1, .failed, hread.followed hmoves⟩
      | late _ =>
        rw [hstale] at hmoves
        exact ⟨_, 1, .dropsLate, hread.followed hmoves⟩

/-- The second half of a deletion, after the documents at the given paths have been removed. -/
theorem removeFiles_below {paths : List String} {start : Option String} {before : Shelf}
    (hheld : held st.store.store name = some (before.dropDocuments paths))
    {named : RemovedDocuments} {found : Except IndexError DeleteReport}
    (h : outcome (match start.filter (!·.isEmpty) with
      | none => do
        let removed ← pure named
        pure { documentsRemoved := removed.paths.length,
               chunksRemoved := removed.chunkIds.length, paths := removed.paths }
      | some start => do
        let removed ← named.merge <$> call (RecordStore.dropDocumentsBelow name start)
        pure { documentsRemoved := removed.paths.length,
               chunksRemoved := removed.chunkIds.length, paths := removed.paths } :
        Indexing (ScriptedStore σ) DeleteReport) st = (found, st')) :
    ∃ after failed, OperationRun indexer st.store.script (LawfulStore.startsWith σ)
        (.removeFiles name paths start) (some before) (found.map .removed) after failed ∧
      Moves name after failed st.store st'.store := by
  split at h
  · next hstart =>
    obtain ⟨rfl, rfl⟩ := Prod.mk.inj h
    have hremoves : before.dropDocuments paths =
        before.dropWhere (Operation.removes (LawfulStore.startsWith σ) paths start) := by
      rw [Shelf.dropDocuments, Operation.removes_of_filter_eq_none hstart]
    refine ⟨_, 0, .removed, ?_⟩
    rw [← hremoves]
    exact .refl hst hheld
  · next text hstart =>
    have hremoves : (before.dropDocuments paths).dropWhere (LawfulStore.startsWith σ text) =
        before.dropWhere (Operation.removes (LawfulStore.startsWith σ) paths start) := by
      rw [Shelf.dropDocuments, Shelf.dropWhere_or, Operation.removes_of_filter_eq_some hstart]
    rw [bind_map_left] at h
    obtain ⟨dropped, st₁, hdropped, h⟩ | ⟨e, after, rfl, hend, hmoves⟩ :=
      outcome_change_cases (LawfulStore.dropDocumentsBelow name text) hst hheld h
    · obtain ⟨rfl, rfl⟩ := Prod.mk.inj h
      rw [hremoves] at hdropped
      exact ⟨_, 0, .removed, hdropped⟩
    · cases hend with
      | early _ => exact ⟨_, 1, .dropsLate, hmoves⟩
      | late _ =>
        rw [hremoves] at hmoves
        exact ⟨_, 1, .dropsLate, hmoves⟩

theorem operationRun_removeFiles {paths : List String} {start : Option String}
    (h : outcome ((Operation.removeFiles name paths start).run indexer) st = (answer, st')) :
    ∃ after failed, OperationRun indexer st.store.script (LawfulStore.startsWith σ)
        (.removeFiles name paths start) (held st.store.store name) answer after failed ∧
      Moves name after failed st.store st'.store := by
  obtain ⟨found, hrun, rfl⟩ := outcome_map_cases h
  unfold Indexer.removeFiles at hrun
  obtain ⟨st₁, hthere, hrun⟩ | ⟨e, rfl, hmoves⟩ := outcome_hasStore_cases hst hrun
  swap
  · exact ⟨_, 1, .failed, hmoves⟩
  cases hheld : held st.store.store name with
  | none =>
    rw [hheld] at hrun hthere
    obtain ⟨rfl, rfl⟩ := Prod.mk.inj hrun
    exact ⟨none, 0, .absent, hthere⟩
  | some before =>
    rw [hheld] at hrun hthere
    simp only [Option.isSome_some, Bool.not_true, Bool.false_eq_true, if_false] at hrun
    obtain ⟨named, st₂, hdropped, hrun⟩ | ⟨e, after, rfl, hend, hmoves⟩ :=
      outcome_change_cases (LawfulStore.dropDocuments name paths) hthere.valid hthere.held_self
        hrun
    · obtain ⟨after, failed, hoperation, hbelow⟩ :=
        removeFiles_below hdropped.valid hdropped.held_self hrun
      rw [hdropped.script, hthere.script] at hoperation
      exact ⟨after, failed, hoperation, hthere.followed (hdropped.followed hbelow)⟩
    · cases hend with
      | early _ => exact ⟨_, 1, .failed, hthere.followed hmoves⟩
      | late _ => exact ⟨_, 1, .dropsLate, hthere.followed hmoves⟩

theorem operationRun_syncDeleted {current : List String}
    (h : outcome ((Operation.syncDeleted name current).run indexer) st = (answer, st')) :
    ∃ after failed, OperationRun indexer st.store.script (LawfulStore.startsWith σ)
        (.syncDeleted name current) (held st.store.store name) answer after failed ∧
      Moves name after failed st.store st'.store := by
  obtain ⟨after, failed, hrun, hmoves⟩ := operationRun_syncMissing hst h
  exact ⟨after, failed, .syncedDeleted hrun, hmoves⟩

/-- Every run of an operation is an `OperationRun`. -/
theorem operationRun_run {operation : Operation}
    (h : outcome (operation.run indexer) st = (answer, st')) :
    ∃ after failed, OperationRun indexer st.store.script (LawfulStore.startsWith σ) operation
        (held st.store.store operation.store) answer after failed ∧
      Moves operation.store after failed st.store st'.store := by
  cases operation with
  | createStore => exact operationRun_createStore hst h
  | dropStore => exact operationRun_dropStore hst h
  | addFiles => exact operationRun_addFiles hst h
  | rebuild => exact operationRun_rebuild hst h
  | removeFiles => exact operationRun_removeFiles hst h
  | syncDeleted => exact operationRun_syncDeleted hst h
  | syncMissing => exact operationRun_syncMissing hst h

end Runs

end Indexer

/-! ## Invariants -/

/-- A property of shelves that an empty shelf has and that batches and deletions keep is kept by all
operations. -/
theorem OperationRun.preserves {indexer : Indexer} {script : FaultScript}
    {startsWith : String → String → Bool} {operation : Operation} {earlier later : Option Shelf}
    {answer : Except IndexError Reply} {failed : Nat} {P : Shelf → Prop}
    (h : OperationRun indexer script startsWith operation earlier answer later failed)
    (hempty : P {}) (hdrop : ∀ shelf drop, P shelf → P (shelf.dropWhere drop))
    (hbatch : ∀ force before outcomes after failed,
      BatchRun indexer script force operation.files before outcomes after failed →
      P before → P after)
    (hearlier : ∀ shelf, earlier = some shelf → P shelf) :
    ∀ shelf, later = some shelf → P shelf := by
  have hcreated : P (earlier.getD {}) := by
    cases earlier with
    | none => exact hempty
    | some shelf => exact hearlier shelf rfl
  induction h with
  | created | createdLate =>
    rintro _ ⟨⟩
    exact hcreated
  | dropped | droppedLate | missing | absent => rintro _ ⟨⟩
  | failed => exact hearlier
  | added hrun =>
    rintro _ ⟨⟩
    exact hbatch _ _ _ _ _ hrun (hearlier _ rfl)
  | rebuilt hrun =>
    rintro _ ⟨⟩
    exact hbatch _ _ _ _ _ hrun hempty
  | clearedLate =>
    rintro _ ⟨⟩
    exact hempty
  | removed | synced | dropsLate =>
    rintro _ ⟨⟩
    exact hdrop _ _ (hearlier _ rfl)
  | syncedDeleted _ ih => exact ih hbatch hearlier hcreated

/-- Every call ends as an `OperationRun` of its operation. -/
theorem IndexCall.operationRun_make {σ : Type} [RecordStore σ] [LawfulStore σ] (indexer : Indexer)
    (call : IndexCall) {st : IndexState (ScriptedStore σ)} (hst : Valid st.store.store) :
    ∃ after failed, OperationRun indexer st.store.script (LawfulStore.startsWith σ) call.operation
        (held st.store.store call.operation.store) (call.make indexer st).1 after failed ∧
      Moves call.operation.store after failed st.store (call.make indexer st).2.store := by
  have hvalid : Valid ({ st with token := call.token, now := call.now } :
      IndexState (ScriptedStore σ)).store.store := hst
  exact Indexer.operationRun_run hvalid rfl

/-- Such a property is kept by histories. -/
theorem history_preserves {σ : Type} [RecordStore σ] [LawfulStore σ] (indexer : Indexer)
    (calls : List IndexCall) (st : IndexState (ScriptedStore σ)) {P : Shelf → Prop}
    (hst : Valid st.store.store) (hempty : P {})
    (hdrop : ∀ shelf drop, P shelf → P (shelf.dropWhere drop))
    (hbatch : ∀ call ∈ calls, ∀ force before outcomes after failed,
      BatchRun indexer st.store.script force call.operation.files before outcomes after failed →
      P before → P after)
    (hheld : ∀ name shelf, held st.store.store name = some shelf → P shelf) :
    Valid (history indexer calls st).2.store.store ∧
      (history indexer calls st).2.store.script = st.store.script ∧
      ∀ name shelf, held (history indexer calls st).2.store.store name = some shelf → P shelf := by
  induction calls generalizing st with
  | nil => exact ⟨hst, rfl, hheld⟩
  | cons call rest ih =>
    obtain ⟨hcall, hrest⟩ := List.forall_mem_cons.1 hbatch
    obtain ⟨after, failed, hrun, hmoves⟩ := call.operationRun_make indexer hst
    have hafter := hrun.preserves hempty hdrop hcall (hheld call.operation.store)
    rw [← hmoves.script] at hrest
    obtain ⟨hvalid, hscript, hkept⟩ := ih _ hmoves.valid hrest fun name shelf hshelf => by
      rw [hmoves.held] at hshelf
      by_cases hname : name = call.operation.store
      · subst hname
        rw [Function.update_self] at hshelf
        exact hafter shelf hshelf
      · rw [Function.update_of_ne hname] at hshelf
        exact hheld name shelf hshelf
    exact ⟨hvalid, hscript.trans hmoves.script, hkept⟩

end CodeIndex
