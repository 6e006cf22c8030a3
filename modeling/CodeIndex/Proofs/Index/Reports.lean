import Mathlib.Algebra.GroupWithZero.Nat
import CodeIndex.Cli.Run
import CodeIndex.Proofs.Index.BatchRun

/-!
# Reports are complete

A report has an outcome for every file that was handed in, and its counters are those of its
outcomes.  Nothing is assumed of the store: whatever its calls answer, an error either ends the
batch, and then there is no report, or it is entered as the outcome of its file.

## Main definitions

* `IndexReport.Balanced` says that the counters are those of the outcomes.
* `IndexReport.Accounts` says so of a report with one outcome for each of some paths, in order.
* `Concludes` are the ways in which a batch can end.

## Main results

* `IndexReport.Accounts.record`: entering an outcome keeps the account.
* `Indexer.concludes_indexBatch`: so does a batch, from any report on.
* `reports_complete`: the reports of the operations account for their files.
-/

namespace CodeIndex

open Indexing

namespace FileOutcome

/-- An outcome has the text of an error if the file failed, and only then. -/
def Explained (outcome : FileOutcome) : Prop :=
  outcome.error.isSome ↔ outcome.status = .failed

end FileOutcome

namespace IndexReport

/-- The counters of a report are those of its outcomes, and the outcomes are explained. -/
structure Balanced (report : IndexReport) : Prop where
  indexed : report.indexed = report.files.countP (·.status = .indexed)
  skipped : report.skipped = report.files.countP (·.status = .skipped)
  failed : report.failed = report.files.countP (·.status = .failed)
  chunksTotal : report.chunksTotal =
    ((report.files.filter (·.status = .indexed)).map (·.chunks)).sum
  explained : ∀ outcome ∈ report.files, outcome.Explained

/-- A balanced report with one outcome for each of some paths, in order. -/
structure Accounts (report : IndexReport) (paths : List String) : Prop extends Balanced report where
  map_path : report.files.map (·.path) = paths
  /-- The failed paths are those whose outcomes are failures. -/
  failedPaths : report.failedPaths = (paths.zip report.files).filterMap fun (path, outcome) =>
    if outcome.status = .failed then some path else none

/-- Enter files that failed. -/
def recordFailures (report : IndexReport) (failures : List (String × String)) : IndexReport :=
  failures.foldl (fun report (path, error) => report.recordFailure path error) report

variable {report : IndexReport} {outcome : FileOutcome} {paths : List String}

theorem balanced_empty (store : String) : Balanced { store } where
  indexed := rfl
  skipped := rfl
  failed := rfl
  chunksTotal := rfl
  explained := by simp

theorem Balanced.record (h : report.Balanced) (houtcome : outcome.Explained) :
    (report.record outcome).Balanced where
  indexed := by
    rw [files_record, List.countP_append, ← h.indexed]
    cases hstatus : outcome.status <;> simp [IndexReport.record, hstatus]
  skipped := by
    rw [files_record, List.countP_append, ← h.skipped]
    cases hstatus : outcome.status <;> simp [IndexReport.record, hstatus]
  failed := by
    rw [files_record, List.countP_append, ← h.failed]
    cases hstatus : outcome.status <;> simp [IndexReport.record, hstatus]
  chunksTotal := by
    rw [files_record, List.filter_append, List.map_append, List.sum_append, ← h.chunksTotal]
    cases hstatus : outcome.status <;> simp [IndexReport.record, hstatus]
  explained := by
    rw [files_record]
    exact List.forall_mem_append.2 ⟨h.explained, List.forall_mem_singleton.2 houtcome⟩

theorem filterMap_zip_failed (outcomes : List FileOutcome) :
    (((outcomes.map (·.path)).zip outcomes).filterMap fun (path, outcome) =>
      if outcome.status = .failed then some path else none) =
      (outcomes.filter (·.status = .failed)).map (·.path) := by
  induction outcomes with
  | nil => rfl
  | cons outcome rest ih =>
    by_cases h : outcome.status = .failed <;> simp [h, ih]

theorem Balanced.accounts (h : report.Balanced) : report.Accounts (report.files.map (·.path)) where
  toBalanced := h
  map_path := rfl
  failedPaths := (filterMap_zip_failed report.files).symm

theorem Accounts.record (h : report.Accounts paths) (houtcome : outcome.Explained) :
    (report.record outcome).Accounts (paths ++ [outcome.path]) := by
  have haccounts := (h.toBalanced.record houtcome).accounts
  rwa [files_record, List.map_append, h.map_path] at haccounts

theorem explained_failure (path error : String) : FileOutcome.Explained
    { path, documentId := "", status := .failed, chunks := 0, error := some error } := by
  simp [FileOutcome.Explained]

theorem Accounts.recordFailures (h : report.Accounts paths) (failures : List (String × String)) :
    (report.recordFailures failures).Accounts (paths ++ failures.map (·.1)) := by
  induction failures generalizing report paths with
  | nil => rwa [List.map_nil, List.append_nil]
  | cons failure rest ih =>
    have hnext := ih (h.record (explained_failure failure.1 failure.2))
    rwa [List.append_assoc] at hnext

end IndexReport

theorem Cli.addUnreadable_eq (report : IndexReport) (unreadable : List (String × FileError)) :
    Cli.addUnreadable report unreadable =
      report.recordFailures (unreadable.map fun (path, e) => (path, e.message)) := by
  rw [IndexReport.recordFailures, List.foldl_map]
  rfl

/-- How a batch can end: it is told to stop, its store is gone, or there is a report that accounts
for its files. -/
inductive Concludes (paths : List String) : Except IndexError IndexReport → Prop
  | cancelled : Concludes paths (.error .cancelled)
  | notFound (store : String) : Concludes paths (.error (.notFound store))
  | reported {report : IndexReport} : report.Accounts paths → Concludes paths (.ok report)

/-- Files that could not be read are accounted for when they are added to the report. -/
theorem Concludes.recordFailures {paths : List String} {answer : Except IndexError IndexReport}
    (h : Concludes paths answer) (failures : List (String × String)) :
    Concludes (paths ++ failures.map (·.1)) (answer.map (·.recordFailures failures)) := by
  cases h with
  | cancelled => exact .cancelled
  | notFound store => exact .notFound store
  | reported haccounts => exact .reported (haccounts.recordFailures failures)

namespace Indexing

variable {σ α β : Type} {P : β → Prop}

/-- Whatever the operation answers with has a property. -/
def Answers (P : β → Prop) (operation : Indexing σ β) : Prop :=
  ∀ st b, (outcome operation st).1 = .ok b → P b

theorem answers_pure {b : β} (h : P b) : Answers P (pure b : Indexing σ β) := by
  rintro st _ ⟨⟩
  exact h

theorem Answers.bind {first : Indexing σ α} {next : α → Indexing σ β}
    (hnext : ∀ a, Answers P (next a)) : Answers P (first >>= next) := by
  intro st b hanswer
  rw [outcome_bind] at hanswer
  split at hanswer
  · exact hnext _ _ b hanswer
  · cases hanswer

end Indexing

namespace Indexer

variable {σ : Type} [RecordStore σ] (indexer : Indexer) (store : String) (force : Bool)

/-- An outcome that `indexFile` answers with is that of the file, and no failure. -/
theorem answers_indexFile (file : SourceFile) :
    Answers (fun outcome => outcome.path = file.path ∧ outcome.Explained)
      (indexer.indexFile store force file : Indexing σ FileOutcome) := by
  have hwrite : ∀ records, Answers (fun outcome => outcome.path = file.path ∧ outcome.Explained)
      (writeFile store file records : Indexing σ FileOutcome) := fun records =>
    .bind fun _ => .bind fun _ => .bind fun _ => answers_pure ⟨rfl, by simp [FileOutcome.Explained]⟩
  rw [indexFile_eq]
  refine .bind fun _ => .bind fun existing => ?_
  split
  · exact answers_pure ⟨rfl, by simp [FileOutcome.Explained]⟩
  · refine .bind fun records => .bind fun _ => ?_
    unfold replaceFile
    split
    · exact .bind fun _ => hwrite records
    · exact hwrite records

/-- From any report on, a batch is told to stop, loses its store, or ends with a report that
accounts for its files as well. -/
theorem concludes_indexBatch {report : IndexReport} {paths : List String}
    (hreport : report.Accounts paths) (files : List SourceFile) (st : IndexState σ) :
    Concludes (paths ++ files.map (·.path))
      (outcome (indexer.indexBatch store force report files) st).1 := by
  induction files generalizing report paths st with
  | nil =>
    rw [List.map_nil, List.append_nil]
    exact .reported hreport
  | cons file rest ih =>
    unfold indexBatch
    rw [outcome_bind]
    split
    next st₁ hcheck =>
      rw [outcome_bind, outcome_attempt]
      cases hfile : (outcome (indexer.indexFile store force file) st₁).1 with
      | ok found =>
        obtain ⟨hpath, hexplained⟩ := answers_indexFile indexer store force file st₁ found hfile
        rw [List.map_cons, List.append_cons, ← hpath]
        exact ih (hreport.record hexplained) _
      | error e =>
        dsimp only
        split
        · next hends =>
          cases e with
          | cancelled => exact .cancelled
          | notFound name => exact .notFound name
          | _ => cases hends
        · rw [List.map_cons, List.append_cons]
          exact ih (hreport.record (IndexReport.explained_failure file.path e.message)) _
    next e st₁ hcheck =>
      rw [checkpoint_error hcheck]
      exact .cancelled

/-- An operation fails as a check does, or passes it and concludes, whatever files that could not be
read are added to its report. -/
def ConcludesAfter (check : Indexing σ Unit) (operation : Indexing σ IndexReport)
    (paths : List String) (st : IndexState σ) : Prop :=
  (∃ e, (outcome check st).1 = .error e ∧ (outcome operation st).1 = .error e) ∨
    (outcome check st).1 = .ok () ∧ ∀ failures : List (String × String),
      Concludes (paths ++ failures.map (·.1))
        ((outcome operation st).1.map (·.recordFailures failures))

theorem concludesAfter_indexBatch (check : Indexing σ Unit) (files : List SourceFile)
    (st : IndexState σ) : ConcludesAfter check
      (check >>= fun _ => indexer.indexBatch store force { store } files) (files.map (·.path))
      st := by
  have haccounts := (IndexReport.balanced_empty store).accounts
  unfold ConcludesAfter
  rw [outcome_bind]
  split
  · next st₁ hcheck =>
    rw [hcheck]
    exact .inr ⟨rfl, (concludes_indexBatch indexer store force haccounts files st₁).recordFailures⟩
  · next e st₁ hcheck =>
    rw [hcheck]
    exact .inl ⟨e, rfl, rfl⟩

end Indexer

/-- **Complete reports.**  On any store and in any state, whatever fails on the way, bringing files
into a store and rebuilding it fail as their checks do, are told to stop, lose their store, or
answer with a report that has one outcome for each file, in order, and the counters of these
outcomes.  This is still so when files that could not be read are added, as the command line
does. -/
theorem reports_complete {σ : Type} [RecordStore σ] (indexer : Indexer) (store : String)
    (files : List SourceFile) (st : IndexState σ) :
    (∀ force, Indexer.ConcludesAfter (Indexer.checkExists store)
      (indexer.addFiles store force files) (files.map (·.path)) st) ∧
    Indexer.ConcludesAfter (do Indexer.checkExists store; call (RecordStore.clear store))
      (indexer.rebuild store files) (files.map (·.path)) st ∧
    ∀ (report : IndexReport) (unreadable : List (String × FileError)),
      Cli.addUnreadable report unreadable =
        report.recordFailures (unreadable.map fun (path, e) => (path, e.message)) := by
  refine ⟨fun force => Indexer.concludesAfter_indexBatch indexer store force _ files st, ?_, Cli.addUnreadable_eq⟩
  have hrebuild := Indexer.concludesAfter_indexBatch indexer store true
    (do Indexer.checkExists store; call (RecordStore.clear store)) files st
  rwa [bind_assoc] at hrebuild

end CodeIndex
