import CodeIndex.Proofs.Index.FileRun

/-!
# What indexing a batch does

A batch is a sequence of files, each of which is brought in on the shelf that the one before has
left.  It ends early when the token fires or the store is gone; any other error becomes an outcome
in the report.

## Main definitions

* `BatchRun` are the ways in which a batch can be indexed.

## Main results

* `batchRun_indexBatch`: there are no others.
* `BatchRun.map_path`: the report has the outcomes of the files in order.
-/

namespace CodeIndex

open Indexing ScriptedStore
open LawfulStore (Valid)

/-- What is entered in the report for a file. -/
def FileOutcome.ofAnswer (file : SourceFile) : Except IndexError FileOutcome → FileOutcome
  | .ok outcome => outcome
  | .error e =>
    { path := file.path, documentId := "", status := .failed, chunks := 0, error := some e.message }

/-- The answer, the shelf and the number of failing calls with which indexing a batch can end. -/
inductive BatchRun (indexer : Indexer) (script : FaultScript) (force : Bool) :
    List SourceFile → Shelf → Except IndexError (List FileOutcome) → Shelf → Nat → Prop
  | done {shelf : Shelf} : BatchRun indexer script force [] shelf (.ok []) shelf 0
  /-- The token has fired between two files. -/
  | stopped {file : SourceFile} {rest : List SourceFile} {shelf : Shelf} :
      BatchRun indexer script force (file :: rest) shelf (.error .cancelled) shelf 0
  | aborted {file : SourceFile} {rest : List SourceFile} {before after : Shelf} {e : IndexError}
      {failed : Nat} : FileRun indexer script force file before (.error e) after failed →
      e.endsBatch = true →
      BatchRun indexer script force (file :: rest) before (.error e) after failed
  | noted {file : SourceFile} {rest : List SourceFile} {before middle after : Shelf}
      {answer : Except IndexError FileOutcome} {outcomes : Except IndexError (List FileOutcome)}
      {failed failed' : Nat} : FileRun indexer script force file before answer middle failed →
      (∀ e, answer = .error e → e.endsBatch = false) →
      BatchRun indexer script force rest middle outcomes after failed' →
      BatchRun indexer script force (file :: rest) before
        (outcomes.map (.ofAnswer file answer :: ·)) after (failed + failed')

namespace IndexReport

@[simp] theorem files_record (report : IndexReport) (outcome : FileOutcome) :
    (report.record outcome).files = report.files ++ [outcome] := by
  unfold record
  split <;> rfl

theorem files_foldl_record (report : IndexReport) (outcomes : List FileOutcome) :
    (outcomes.foldl record report).files = report.files ++ outcomes := by
  induction outcomes generalizing report with
  | nil => simp
  | cons outcome rest ih => rw [List.foldl_cons, ih, files_record, List.append_assoc]; rfl

end IndexReport

namespace Indexer

variable {σ : Type} [RecordStore σ] [LawfulStore σ] {indexer : Indexer} {force : Bool}
  {name : String}

/-- Every run of `indexBatch` is a `BatchRun`, whose outcomes are entered in the report. -/
theorem batchRun_indexBatch {files : List SourceFile} {report : IndexReport}
    {st st' : IndexState (ScriptedStore σ)} {before : Shelf}
    {answer : Except IndexError IndexReport}
    (hst : Valid st.store.store) (hheld : held st.store.store name = some before)
    (h : outcome (indexer.indexBatch name force report files) st = (answer, st')) :
    ∃ outcomes after failed,
      BatchRun indexer st.store.script force files before outcomes after failed ∧
      answer = outcomes.map (fun outcomes => outcomes.foldl .record report) ∧
      Moves name (some after) failed st.store st'.store := by
  induction files generalizing report st before with
  | nil =>
    obtain ⟨rfl, rfl⟩ := Prod.mk.inj h
    exact ⟨_, before, 0, .done, rfl, .refl hst hheld⟩
  | cons file rest ih =>
    unfold indexBatch at h
    obtain ⟨_, st₁, hcheck, h⟩ | ⟨e, rfl, hcheck⟩ := outcome_bind_cases h
    all_goals have hstill := storeless_checkpoint.moves (.refl hst hheld) hcheck
    swap
    · obtain rfl := checkpoint_error hcheck
      exact ⟨_, before, 0, .stopped, rfl, hstill⟩
    obtain ⟨answered, st₂, hattempt, h⟩ | ⟨e, -, hattempt⟩ := outcome_bind_cases h
    swap
    · cases (Prod.mk.inj hattempt).1
    have hfile : outcome (indexer.indexFile name force file) st₁ = (answered, st₂) := by
      rw [outcome_attempt] at hattempt
      obtain ⟨hanswered, rfl⟩ := Prod.mk.inj hattempt
      rw [← Except.ok.inj hanswered]
    obtain ⟨middle, failed, hrun, hmoves⟩ := fileRun_indexFile hstill.valid hstill.held_self hfile
    rw [hstill.script] at hrun
    have hmoves' := hstill.followed hmoves
    -- The rest of the batch, whatever is entered for the file.
    have hrest : ∀ {report' : IndexReport}, report' = report.record (.ofAnswer file answered) →
        outcome (indexer.indexBatch name force report' rest) st₂ = (answer, st') →
        (∀ e, answered = .error e → e.endsBatch = false) →
        ∃ outcomes after failed,
          BatchRun indexer st.store.script force (file :: rest) before outcomes after failed ∧
          answer = outcomes.map (fun outcomes => outcomes.foldl .record report) ∧
          Moves name (some after) failed st.store st'.store := by
      rintro _ rfl h hends
      obtain ⟨outcomes, after, failed', hbatch, rfl, hmoves''⟩ :=
        ih hmoves.valid hmoves.held_self h
      rw [hmoves.script, hstill.script] at hbatch
      refine ⟨_, after, _, .noted hrun hends hbatch, ?_, hmoves'.trans hmoves''⟩
      cases outcomes <;> rfl
    cases answered with
    | ok outcome => exact hrest rfl h fun e he => by cases he
    | error e =>
      dsimp only at h
      split at h
      · next hends =>
        obtain ⟨rfl, rfl⟩ := Prod.mk.inj h
        exact ⟨_, middle, failed, .aborted hrun hends, rfl, hmoves'⟩
      · next hends =>
        refine hrest rfl h fun e' he => ?_
        obtain rfl := Except.error.inj he
        exact Bool.eq_false_iff.2 hends

end Indexer

theorem FileRun.path_ofAnswer {indexer : Indexer} {script : FaultScript} {force : Bool}
    {file : SourceFile} {before after : Shelf} {answer : Except IndexError FileOutcome}
    {failed : Nat} (h : FileRun indexer script force file before answer after failed) :
    (FileOutcome.ofAnswer file answer).path = file.path := by
  cases h <;> rfl

/-- The outcomes are those of the files, in order. -/
theorem BatchRun.map_path {indexer : Indexer} {script : FaultScript} {force : Bool}
    {batch : List SourceFile} {before after : Shelf}
    {outcomes : Except IndexError (List FileOutcome)} {failed : Nat}
    (h : BatchRun indexer script force batch before outcomes after failed)
    {found : List FileOutcome} (hfound : outcomes = .ok found) :
    found.map (·.path) = batch.map (·.path) := by
  induction h generalizing found with
  | done =>
    obtain rfl := Except.ok.inj hfound
    rfl
  | stopped => cases hfound
  | aborted _ _ => cases hfound
  | @noted _ _ _ _ _ _ outcomes _ _ hfile _ _ ih =>
    cases outcomes with
    | error e => cases hfound
    | ok later =>
      obtain rfl := Except.ok.inj hfound
      rw [List.map_cons, List.map_cons, hfile.path_ofAnswer, ih rfl]

end CodeIndex
