import CodeIndex.Proofs.Index.Healing

/-!
# Files that fail

A file that fails leaves no part of itself in the store.  Up to the removal of the old version
nothing has been changed, and from then on whatever was written is removed again, so that nothing
stands at the path of the file.  This needs that the removal of chunks does not fail before its
effect and that a failing removal or write of a document has none.

## Main definitions

* `Indexer.steps` are the steps of a batch, one for each file, with the states between them, and
  `Accounts` says that they tell what the batch answers.
* `Indexer.prepareFile` is what is done for a file up to the removal of its old version.
* `Shelf.Documented` says that there is a document at every path with chunks.
* `FileStep.LeavesNoPart` is what a step that failed leaves behind.

## Main results

* `Indexer.indexFile_eq_prepareFile`: a file is prepared and then written.
* `failed_file_leaves_no_part`: every step of a batch that failed leaves no part of its file.
-/

namespace CodeIndex

open Indexing ScriptedStore
open LawfulStore (Valid)

/-! ## The steps of a batch -/

/-- What is done for one file of a batch. -/
structure FileStep (σ : Type) where
  file : SourceFile
  before : IndexState σ
  answer : Except IndexError FileOutcome
  after : IndexState σ

/-- What is entered in the report for the step. -/
def FileStep.entry {σ : Type} (step : FileStep σ) : FileOutcome := .ofAnswer step.file step.answer

namespace Indexer

section Steps

variable {σ : Type} [RecordStore σ]

/-- The steps of a batch on an existing store: one for each file, until the token fires between two
files or a file ends the batch. -/
def batchSteps (indexer : Indexer) (store : String) (force : Bool) :
    List SourceFile → IndexState σ → List (FileStep σ)
  | [], _ => []
  | file :: rest, st =>
    match outcome checkpoint st with
    | (.error _, _) => []
    | (.ok _, before) =>
      let made := outcome (indexer.indexFile store force file) before
      ⟨file, before, made.1, made.2⟩ ::
        match made.1 with
        | .ok _ => indexer.batchSteps store force rest made.2
        | .error e => if e.endsBatch then [] else indexer.batchSteps store force rest made.2

/-- The steps of a batch; none if the store cannot be found. -/
def steps (indexer : Indexer) (store : String) (force : Bool) (files : List SourceFile)
    (st : IndexState σ) : List (FileStep σ) :=
  match outcome (checkExists store) st with
  | (.ok _, st) => indexer.batchSteps store force files st
  | (.error _, _) => []

end Steps

end Indexer

/-- The steps tell the answer of the batch. -/
structure Accounts {σ : Type} (steps : List (FileStep σ)) (files : List SourceFile)
    (answer : Except IndexError IndexReport) : Prop where
  /-- A report has the outcomes of the steps, one for each file of the batch. -/
  reported : ∀ report, answer = .ok report →
    steps.map (·.file) = files ∧ report.files = steps.map (·.entry)
  /-- A batch that is given up is given up in the last step, or before the first. -/
  aborted : ∀ e, answer = .error e → e ≠ .cancelled →
    steps = [] ∨ ∃ step, steps.getLast? = some step ∧ step.answer = .error e

namespace Indexer

section Steps

variable {σ : Type} [RecordStore σ] {indexer : Indexer} {store : String} {force : Bool}
  {st st' : IndexState σ}

/-- The steps of a batch tell what is entered in the report, or the error. -/
theorem accounts_batchSteps {files : List SourceFile} {report : IndexReport}
    {answer : Except IndexError IndexReport}
    (h : outcome (indexer.indexBatch store force report files) st = (answer, st')) :
    (∀ found, answer = .ok found →
        (indexer.batchSteps store force files st).map (·.file) = files ∧
        found.files = report.files ++
          (indexer.batchSteps store force files st).map (·.entry)) ∧
      ∀ e, answer = .error e → e ≠ .cancelled →
        ∃ step, (indexer.batchSteps store force files st).getLast? = some step ∧
          step.answer = .error e := by
  induction files generalizing report st with
  | nil =>
    obtain ⟨rfl, rfl⟩ := Prod.mk.inj h
    refine ⟨?_, fun e he => by cases he⟩
    rintro _ ⟨⟩
    exact ⟨rfl, (List.append_nil _).symm⟩
  | cons file rest ih =>
    unfold indexBatch at h
    unfold batchSteps
    obtain ⟨_, before, hcheck, h⟩ | ⟨e, rfl, hcheck⟩ := outcome_bind_cases h
    swap
    · obtain rfl := checkpoint_error hcheck
      exact ⟨fun _ he => (by cases he), fun _ he hne => absurd (Except.error.inj he).symm hne⟩
    simp only [hcheck]
    rw [outcome_bind, outcome_attempt] at h
    generalize hmade : outcome (indexer.indexFile store force file) before = made at h ⊢
    obtain ⟨answered, middle⟩ := made
    -- The rest of the batch, whatever is entered for the file.
    have hrest : ∀ {report' : IndexReport}, report' = report.record (.ofAnswer file answered) →
        outcome (indexer.indexBatch store force report' rest) middle = (answer, st') →
        (∀ found, answer = .ok found →
          (⟨file, before, answered, middle⟩ :: indexer.batchSteps store force rest middle).map
              FileStep.file = file :: rest ∧
            found.files = report.files ++ (⟨file, before, answered, middle⟩ ::
              indexer.batchSteps store force rest middle).map FileStep.entry) ∧
        ∀ e, answer = .error e → e ≠ .cancelled →
          ∃ step, (⟨file, before, answered, middle⟩ ::
            indexer.batchSteps store force rest middle).getLast? = some step ∧
            step.answer = .error e := by
      rintro _ rfl hlater
      obtain ⟨hreported, haborted⟩ := ih hlater
      refine ⟨fun found hfound => ?_, fun e he hne => ?_⟩
      · obtain ⟨hfiles, houtcomes⟩ := hreported found hfound
        refine ⟨by rw [List.map_cons, hfiles], ?_⟩
        rw [houtcomes, IndexReport.files_record, List.append_assoc]
        rfl
      · obtain ⟨step, hlast, hanswer⟩ := haborted e he hne
        exact ⟨step, by rw [List.getLast?_cons, hlast]; rfl, hanswer⟩
    cases answered with
    | ok found => exact hrest rfl h
    | error e =>
      dsimp only at h ⊢
      split at h
      · next hends =>
        obtain ⟨rfl, rfl⟩ := Prod.mk.inj h
        rw [if_pos hends]
        refine ⟨fun _ he => (by cases he), fun e' he _ => ⟨_, rfl, ?_⟩⟩
        exact congrArg _ (Except.error.inj he)
      · next hends =>
        rw [if_neg hends]
        exact hrest rfl h

theorem accounts_steps {files : List SourceFile} {answer : Except IndexError IndexReport}
    (h : outcome (indexer.addFiles store force files) st = (answer, st')) :
    Accounts (indexer.steps store force files st) files answer := by
  unfold steps
  obtain ⟨_, middle, hcheck, h⟩ | ⟨e, rfl, hcheck⟩ := outcome_bind_cases h
  · rw [hcheck]
    obtain ⟨hreported, haborted⟩ := accounts_batchSteps h
    refine ⟨hreported, fun e he hne => .inr (haborted e he hne)⟩
  · rw [hcheck]
    exact ⟨fun _ he => (by cases he), fun _ _ _ => .inl rfl⟩

end Steps

/-! ## What comes before the first write -/

section Prepare

variable {σ : Type} [RecordStore σ]

/-- Remove the old version of a file, if there is one. -/
def removeOld (store : String) (file : SourceFile) (existing : Option DocumentRecord) :
    Indexing σ Unit :=
  if existing.isSome then discard (call (RecordStore.dropDocuments store [file.path]))
  else return ()

/-- What is done for a file up to the removal of its old version: either the file is skipped, or
these are the records to be written. -/
def prepareFile (indexer : Indexer) (store : String) (force : Bool) (file : SourceFile) :
    Indexing σ (FileOutcome ⊕ List ChunkRecord) := do
  ExceptT.mk (pure (validate indexer.options file))
  let existing ← call (RecordStore.findDocument store file.path)
  match existing.filter fun document => !force && document.documentId == file.versionId with
  | some document =>
    return .inl { path := file.path, documentId := file.versionId, status := .skipped,
                  chunks := document.chunkIds.length }
  | none =>
    let records ← indexer.records file.versionId file.path (decodeSource file).1
      (decodeSource file).2
    checkpoint
    removeOld store file existing
    return .inr records

/-- What is done for a file after that. -/
def finishFile (store : String) (file : SourceFile) :
    FileOutcome ⊕ List ChunkRecord → Indexing σ FileOutcome
  | .inl outcome => return outcome
  | .inr records => writeFile store file records

theorem indexFile_eq_prepareFile (indexer : Indexer) (store : String) (force : Bool)
    (file : SourceFile) : (indexer.indexFile store force file : Indexing σ FileOutcome) =
      indexer.prepareFile store force file >>= finishFile store file := by
  rw [indexFile_eq, prepareFile, bind_assoc]
  refine congrArg _ (funext fun _ => ?_)
  rw [bind_assoc]
  refine congrArg _ (funext fun existing => ?_)
  generalize existing.filter _ = current
  cases current with
  | some document => rfl
  | none =>
    dsimp only
    rw [bind_assoc]
    refine congrArg _ (funext fun records => ?_)
    rw [bind_assoc]
    refine congrArg _ (funext fun _ => ?_)
    rw [bind_assoc]
    unfold replaceFile removeOld
    split <;> rfl

end Prepare

end Indexer

/-! ## Calls without an effect -/

namespace ScriptedStore

variable {σ α : Type} {method : Method} {call : StoreCall σ α} {s : ScriptedStore σ}

/-- A failing call that the store would have granted has no effect, unless it fails late. -/
theorem store_of_error {e : StoreError} {a : α} (hgranted : (call s.store).1 = .ok a)
    (hlate : ¬ s.script.Late method) (h : (scripted method call s).1 = .error e) :
    (scripted method call s).2.store = s.store := by
  rw [fst_scripted] at h
  rw [store_scripted]
  obtain hjudged | ⟨e', -, hjudged⟩ | ⟨e', a', hfate, -, -⟩ :=
    judged_cases (s.script s.calls method) call s.store
  · rw [hjudged, hgranted] at h
    cases h
  · rw [hjudged]
  · exact absurd ⟨_, _, hfate⟩ hlate

theorem store_of_read (hread : (call s.store).2 = s.store) :
    (scripted method call s).2.store = s.store := by
  rw [store_scripted]
  obtain hjudged | ⟨e, -, hjudged⟩ | ⟨e, a, -, -, hjudged⟩ :=
    judged_cases (s.script s.calls method) call s.store
  · rw [hjudged, hread]
  · rw [hjudged]
  · rw [hjudged, hread]

end ScriptedStore

/-! ## What a failure leaves -/

/-- There is a document at every path with chunks. -/
def Shelf.Documented (shelf : Shelf) : Prop :=
  ∀ id record, shelf.chunks id = some record → (shelf.documents record.path).isSome

namespace Shelf

variable {shelf : Shelf} {file : SourceFile} {cut : List Chunk}

theorem documented_empty : ({} : Shelf).Documented := fun _ _ h => by cases h

theorem Documented.dropWhere (h : shelf.Documented) (drop : String → Bool) :
    (shelf.dropWhere drop).Documented := by
  intro id record hrecord
  obtain ⟨hstored, hkept⟩ := chunks_dropWhere_some.1 hrecord
  have hdocument := h id record hstored
  have hdrop : ¬ drop record.path := fun hdrop => hkept ⟨hdrop, hdocument⟩
  simp only [Shelf.dropWhere, if_neg hdrop]
  exact hdocument

theorem Documented.dropChunks (h : shelf.Documented) (ids : List String) :
    (shelf.dropChunks ids).Documented :=
  fun id record hrecord => h id record (chunks_dropChunks_some.1 hrecord).2

theorem Documented.wiped (h : shelf.Documented) (file : SourceFile) (cut : List Chunk) :
    (shelf.wiped file cut).Documented :=
  (h.dropWhere [file.path].contains).dropChunks (file.idsOf cut)

theorem Documented.written (h : shelf.Documented) (file : SourceFile) (cut : List Chunk)
    (now : Int) : (shelf.written file cut now).Documented := by
  intro id record hrecord
  have hdocuments : ∀ path, (shelf.written file cut now).documents path =
      if path = file.path then some (file.document now).bare
      else (shelf.dropDocuments [file.path]).documents path := by
    intro path
    rw [Shelf.written, addDocument, staged, documents_addChunks]
    rfl
  rw [hdocuments]
  split
  · rfl
  · next hpath =>
    obtain ⟨chunk, hchunk, -, rfl⟩ | ⟨-, hbefore⟩ := chunks_addChunks_cases hrecord
    · exact absurd (SourceFile.path_of_mem_recordsOf hchunk) hpath
    · exact h.dropWhere _ id record hbefore

theorem Documented.isSome_or_vacant (h : shelf.Documented) (path : String) :
    (shelf.documents path).isSome ∨ shelf.Vacant path := by
  cases hdocument : shelf.documents path with
  | some document => exact .inl rfl
  | none =>
    refine .inr ⟨hdocument, fun id record hrecord hpath => ?_⟩
    have hsome := h id record hrecord
    rw [hpath, hdocument] at hsome
    cases hsome

end Shelf

section Runs

variable {indexer : Indexer} {script : FaultScript} {force : Bool} {file : SourceFile}
  {before after : Shelf} {failed : Nat}

/-- A file leaves a document at every path with chunks, unless the removal of its chunks fails early
or its document is written late. -/
theorem FileRun.documented {answer : Except IndexError FileOutcome}
    (h : FileRun indexer script force file before answer after failed)
    (hearly : ¬ script.Early .dropChunks) (hlate : ¬ script.Late .putDocument)
    (hbefore : before.Documented) : after.Documented := by
  cases h with
  | skipped _ _ _ | refused _ | untouched => exact hbefore
  | indexed _ => exact hbefore.written file _ _
  | removed => exact hbefore.dropWhere [file.path].contains
  | undone _ => exact hbefore.wiped file _
  | orphaned _ h => exact absurd h hearly
  | hollow _ h | unreported _ h => exact absurd h hlate

theorem BatchRun.documented {batch : List SourceFile}
    {outcomes : Except IndexError (List FileOutcome)}
    (h : BatchRun indexer script force batch before outcomes after failed)
    (hearly : ¬ script.Early .dropChunks) (hlate : ¬ script.Late .putDocument)
    (hbefore : before.Documented) : after.Documented := by
  induction h with
  | done | stopped => exact hbefore
  | aborted hfile _ => exact hfile.documented hearly hlate hbefore
  | noted hfile _ _ ih => exact ih (hfile.documented hearly hlate hbefore)

/-- A file that fails where nothing stands leaves nothing there. -/
theorem FileRun.vacant_of_error {e : IndexError}
    (h : FileRun indexer script force file before (.error e) after failed)
    (hearly : ¬ script.Early .dropChunks) (hlate : ¬ script.Late .putDocument)
    (hbefore : before.Vacant file.path) : after.Vacant file.path := by
  have hremoved : (before.dropDocuments [file.path]).Vacant file.path :=
    Shelf.vacant_dropDocuments (.inr hbefore)
  cases h with
  | refused _ | untouched => exact hbefore
  | removed => exact hremoved
  | undone _ => exact hremoved.dropChunks (file.idsOf _)
  | orphaned _ h => exact absurd h hearly
  | hollow _ h | unreported _ h => exact absurd h hlate

end Runs

section Lawful

variable {σ : Type} [RecordStore σ] [LawfulStore σ] {indexer : Indexer} {name : String}
  {force : Bool} {file : SourceFile} {before : Shelf} {st st' : IndexState (ScriptedStore σ)}

namespace Indexer

/-- The removal of the old version either has no effect or leaves nothing of it. -/
theorem removeOld_cases {existing : Option DocumentRecord} {answer : Except IndexError Unit}
    (hst : Valid st.store.store) (hheld : held st.store.store name = some before)
    (hexisting : existing = none → before.documents file.path = none)
    (hlate : ¬ st.store.script.Late .dropDocuments)
    (h : outcome (removeOld name file existing) st = (answer, st')) :
    (∃ e, answer = .error e ∧ st'.store.store = st.store.store) ∨
      answer = .ok () ∧
        Moves name (some (before.dropDocuments [file.path])) 0 st.store st'.store := by
  unfold removeOld at h
  split at h
  · have hdrop := h
    rw [outcome_discard, outcome_call] at hdrop
    obtain ⟨rfl, rfl⟩ := Prod.mk.inj hdrop
    obtain ⟨after, failed, hend, hmoves⟩ :=
      (LawfulStore.dropDocuments name [file.path]).scripted .dropDocuments hst hheld
    obtain ⟨removed, hgranted⟩ := (LawfulStore.dropDocuments name [file.path]).succeeds
      st.store.store before hst hheld trivial
    generalize hanswered : (RecordStore.dropDocuments name [file.path] st.store).1 = answered
    cases answered with
    | ok _ =>
      rw [show (scripted .dropDocuments (RecordStore.dropDocuments name [file.path])
        st.store).1 = _ from hanswered] at hend
      cases hend with
      | made => exact .inr ⟨rfl, hmoves⟩
    | error e => exact .inl ⟨_, rfl, store_of_error hgranted hlate hanswered⟩
  · next hnone =>
    obtain ⟨rfl, rfl⟩ := Prod.mk.inj h
    rw [← Shelf.dropDocuments_of_none (hexisting (Option.not_isSome_iff_eq_none.1 hnone))] at hheld
    exact .inr ⟨rfl, .refl hst hheld⟩

/-- The document at the path of a file is looked up without an effect. -/
theorem findOld_cases {existing : Option DocumentRecord}
    (hst : Valid st.store.store) (hheld : held st.store.store name = some before)
    (h : outcome (call (RecordStore.findDocument name file.path)) st = (.ok existing, st')) :
    Moves name (some before) 0 st.store st'.store ∧
      (existing = none → before.documents file.path = none) := by
  rw [← bind_pure (call _)] at h
  obtain ⟨found, middle, hlists, hread, h⟩ | ⟨e, he, -⟩ :=
    outcome_read_cases (LawfulStore.findDocument name file.path) hst hheld h
  · obtain ⟨hfound, rfl⟩ := Prod.mk.inj h
    obtain rfl := Except.ok.inj hfound
    refine ⟨hread, fun hnone => ?_⟩
    subst hnone
    generalize before.documents file.path = stored at hlists
    cases hlists
    rfl
  · cases he

theorem store_findOld {found : Except IndexError (Option DocumentRecord)}
    (hst : Valid st.store.store)
    (h : outcome (call (RecordStore.findDocument name file.path)) st = (found, st')) :
    st'.store.store = st.store.store := by
  rw [outcome_call] at h
  obtain ⟨-, rfl⟩ := Prod.mk.inj h
  exact store_of_read ((LawfulStore.findDocument name file.path).state_eq hst)

/-- A file that cannot be prepared leaves the store as it is, and the preparation of a file that is
not skipped removes the old version. -/
theorem prepareFile_cases {answer : Except IndexError (FileOutcome ⊕ List ChunkRecord)}
    (hst : Valid st.store.store) (hheld : held st.store.store name = some before)
    (hlate : ¬ st.store.script.Late .dropDocuments)
    (h : outcome (indexer.prepareFile name force file) st = (answer, st')) :
    (∃ e, answer = .error e ∧ st'.store.store = st.store.store) ∨
      (∃ found, answer = .ok (.inl found)) ∨
      ∃ records cut, answer = .ok (.inr records) ∧ indexer.Cuts file cut ∧
        records.map ChunkRecord.plain = file.recordsOf cut ∧
        Moves name (some (before.dropDocuments [file.path])) 0 st.store st'.store := by
  unfold prepareFile at h
  obtain ⟨_, st₀, hvalid, h⟩ | ⟨e, rfl, hvalid⟩ := outcome_bind_cases h
  all_goals obtain ⟨-, rfl⟩ := Prod.mk.inj hvalid
  swap
  · exact .inl ⟨e, rfl, rfl⟩
  obtain ⟨existing, st₁, hfind, h⟩ | ⟨e, rfl, hfind⟩ := outcome_bind_cases h
  all_goals have hsame := store_findOld hst hfind
  swap
  · exact .inl ⟨e, rfl, hsame⟩
  obtain ⟨hread, hexisting⟩ := findOld_cases hst hheld hfind
  split at h
  · obtain ⟨rfl, -⟩ := Prod.mk.inj h
    exact .inr (.inl ⟨_, rfl⟩)
  · obtain ⟨records, st₂, hrecords, h⟩ | ⟨e, rfl, hrecords⟩ := outcome_bind_cases h
    all_goals
      have hmade := (indexer.storeless_records _ _ _ _).moves hread hrecords
      have hsame₂ := (indexer.storeless_records _ _ _ _).store_eq hrecords
      rw [← hsame₂] at hsame
    swap
    · exact .inl ⟨e, rfl, hsame⟩
    obtain ⟨_, st₃, hcheck, h⟩ | ⟨e, rfl, hcheck⟩ := outcome_bind_cases h
    all_goals
      have hchecked := storeless_checkpoint.moves hmade hcheck
      rw [← storeless_checkpoint.store_eq hcheck] at hsame
    swap
    · exact .inl ⟨e, rfl, hsame⟩
    obtain ⟨cut, hcut, hplain⟩ := records_ok hrecords
    rw [← hchecked.script] at hlate
    obtain ⟨_, st₄, hremove, h⟩ | ⟨e, rfl, hremove⟩ := outcome_bind_cases h
    all_goals obtain ⟨_, he, hkept⟩ | ⟨he, hremoved⟩ :=
      removeOld_cases hchecked.valid hchecked.held_self hexisting hlate hremove
    · cases he
    · obtain ⟨rfl, rfl⟩ := Prod.mk.inj h
      exact .inr (.inr ⟨records, cut, rfl, hcut, hplain, hchecked.followed hremoved⟩)
    · exact .inl ⟨e, rfl, hkept.trans hsame⟩
    · cases he

/-- A file that fails leaves the store as it is if it could not be prepared, and nothing at its path
otherwise. -/
theorem indexFile_error {e : IndexError} (hst : Valid st.store.store)
    (hheld : held st.store.store name = some before) (hdocumented : before.Documented)
    (hdrop : ¬ st.store.script.Late .dropDocuments) (hput : ¬ st.store.script.Late .putDocument)
    (hclean : ¬ st.store.script.Early .dropChunks)
    (h : outcome (indexer.indexFile name force file) st = (.error e, st')) :
    ∃ after failed, FileRun indexer st.store.script force file before (.error e) after failed ∧
      Moves name (some after) failed st.store st'.store ∧
      ((outcome (indexer.prepareFile name force file) st).1.isOk = false →
        st'.store.store = st.store.store) ∧
      ((outcome (indexer.prepareFile name force file) st).1.isOk = true →
        after.Vacant file.path) := by
  obtain ⟨after, failed, hrun, hmoves⟩ := fileRun_indexFile hst hheld h
  refine ⟨after, failed, hrun, hmoves, ?_⟩
  rw [indexFile_eq_prepareFile] at h
  obtain ⟨_, middle, hprepare, h⟩ | ⟨e', he, hprepare⟩ := outcome_bind_cases h
  all_goals
    rw [hprepare]
    obtain ⟨_, hanswer, hsame⟩ | ⟨_, hanswer⟩ | ⟨records, cut, hanswer, hcut, hplain, hremoved⟩ :=
      prepareFile_cases hst hheld hdrop hprepare
  · cases hanswer
  · obtain rfl := Except.ok.inj hanswer
    cases (Prod.mk.inj h).1
  · obtain rfl := Except.ok.inj hanswer
    refine ⟨fun hfalse => (by cases hfalse), fun _ => ?_⟩
    -- The file is written where nothing stands, so it could as well start there.
    have hvacant : (before.dropDocuments [file.path]).Vacant file.path :=
      Shelf.vacant_dropDocuments (hdocumented.isSome_or_vacant file.path)
    have hheld' := hremoved.held_self
    rw [← Shelf.dropDocuments_of_none hvacant.document] at hheld'
    obtain ⟨after', failed', hwrite, hwritten⟩ : ∃ after failed,
        FileRun indexer _ force file _ _ after failed ∧ Moves name (some after) failed _ _ :=
      fileRun_writeFile hcut hplain hremoved.valid hheld' h
    obtain rfl : after = after' :=
      Option.some.inj (hmoves.held_self.symm.trans hwritten.held_self)
    rw [hremoved.script] at hwrite
    exact hwrite.vacant_of_error hclean hput hvacant
  · exact ⟨fun _ => hsame, fun htrue => by cases htrue⟩
  · cases hanswer
  · cases hanswer

end Indexer

/-- What a step that failed leaves of its file: the store as it was if the failure came no later
than the removal of the old version, and otherwise nothing at the path of the file.  Nothing else
has changed. -/
structure FileStep.LeavesNoPart (step : FileStep (ScriptedStore σ)) (indexer : Indexer)
    (store : String) (force : Bool) (before after : Shelf) : Prop where
  held_before : held step.before.store.store store = some before
  held_after : held step.after.store.store store = some after
  unchanged : (outcome (indexer.prepareFile store force step.file) step.before).1.isOk = false →
    step.after.store.store = step.before.store.store
  vacant : (outcome (indexer.prepareFile store force step.file) step.before).1.isOk = true →
    after.Vacant step.file.path
  elsewhere : ∀ path, step.file.path ≠ path → Shelf.SameAt path after before
  otherStores : ∀ name, name ≠ store →
    held step.after.store.store name = held step.before.store.store name

/-! ## Batches -/

namespace Indexer

/-- Every step of a batch starts on a shelf with the properties that files keep. -/
theorem batchSteps_run {P : Shelf → Prop} {files : List SourceFile}
    (hfiles : ∀ file ∈ files, ∀ before answer after failed,
      FileRun indexer st.store.script force file before answer after failed → P before → P after)
    (hst : Valid st.store.store) (hheld : held st.store.store name = some before) (hP : P before)
    {step : FileStep (ScriptedStore σ)} (hstep : step ∈ indexer.batchSteps name force files st) :
    step.file ∈ files ∧ Valid step.before.store.store ∧
      step.before.store.script = st.store.script ∧
      (∃ shelf, held step.before.store.store name = some shelf ∧ P shelf) ∧
      outcome (indexer.indexFile name force step.file) step.before = (step.answer, step.after) := by
  induction files generalizing st before with
  | nil => cases hstep
  | cons file rest ih =>
    obtain ⟨hfile, hrest⟩ := List.forall_mem_cons.1 hfiles
    unfold batchSteps at hstep
    split at hstep
    · cases hstep
    · next _ middle hcheck =>
      have hchecked := storeless_checkpoint.moves (.refl hst hheld) hcheck
      obtain ⟨after, failed, hrun, hmoves⟩ := fileRun_indexFile hchecked.valid hchecked.held_self
        (Prod.eta (outcome (indexer.indexFile name force file) middle)).symm
      have hscript := hmoves.script.trans hchecked.script
      rw [← hscript] at hrest
      -- Wherever the batch goes on after this file.
      have hlater : step ∈ indexer.batchSteps name force rest
          (outcome (indexer.indexFile name force file) middle).2 →
          step.file ∈ file :: rest ∧ Valid step.before.store.store ∧
            step.before.store.script = st.store.script ∧
            (∃ shelf, held step.before.store.store name = some shelf ∧ P shelf) ∧
            outcome (indexer.indexFile name force step.file) step.before =
              (step.answer, step.after) := by
        intro hlater
        obtain ⟨hmem, hvalid, hsame, hshelf, hanswer⟩ := ih hrest hmoves.valid hmoves.held_self
          (hfile _ _ _ _ (hchecked.script ▸ hrun) hP) hlater
        exact ⟨List.mem_cons_of_mem _ hmem, hvalid, hsame.trans hscript, hshelf, hanswer⟩
      obtain rfl | hstep := List.mem_cons.1 hstep
      · exact ⟨List.mem_cons_self, hchecked.valid, hchecked.script,
          ⟨before, hchecked.held_self, hP⟩, rfl⟩
      · split at hstep
        · exact hlater hstep
        · split at hstep
          · cases hstep
          · exact hlater hstep

theorem steps_leave_no_part {files batch : List SourceFile}
    (hst : Valid st.store.store)
    (hshelves : ∀ name shelf, held st.store.store name = some shelf →
      shelf.Documented ∧ shelf.Sourced indexer files)
    (hids : indexer.SeparatesPaths files) (hbatch : batch ⊆ files)
    (hdrop : ¬ st.store.script.Late .dropDocuments) (hput : ¬ st.store.script.Late .putDocument)
    (hclean : ¬ st.store.script.Early .dropChunks) {step : FileStep (ScriptedStore σ)}
    (hstep : step ∈ indexer.steps name force batch st) {e : IndexError}
    (he : step.answer = .error e) :
    ∃ before after, step.LeavesNoPart indexer name force before after := by
  unfold steps at hstep
  split at hstep
  · next _ middle hcheck =>
    rw [← bind_pure (checkExists name)] at hcheck
    obtain ⟨shelf, _, hheld, hmoves, hpure⟩ | ⟨hanswer, -⟩ | ⟨_, hanswer, -⟩ :=
      outcome_checkExists_cases hst hcheck
    · obtain ⟨-, rfl⟩ := Prod.mk.inj hpure
      have hkept : ∀ file ∈ batch, ∀ before answer after failed,
          FileRun indexer st.store.script force file before answer after failed →
          before.Documented ∧ before.Sourced indexer files →
          after.Documented ∧ after.Sourced indexer files :=
        fun file hfile before answer after failed hrun hbefore =>
          ⟨hrun.documented hclean hput hbefore.1, hrun.sourced (hbatch hfile) hbefore.2⟩
      rw [← hmoves.script] at hkept
      obtain ⟨hfile, hvalid, hscript, ⟨before, hbefore, hdocumented, hsourced⟩, hanswer⟩ :=
        batchSteps_run hkept hmoves.valid hmoves.held_self (hshelves name shelf hheld) hstep
      rw [he] at hanswer
      rw [← hmoves.script, ← hscript] at hdrop hput hclean
      obtain ⟨after, failed, hrun, hmoved, hunchanged, hvacant⟩ :=
        indexFile_error hvalid hbefore hdocumented hdrop hput hclean hanswer
      refine ⟨before, after, hbefore, hmoved.held_self, hunchanged, hvacant, fun path hpath => ?_,
        fun other hother => ?_⟩
      · exact hrun.sameAt (fun cut hcut => hsourced.spares hids (hbatch hfile) hcut) hpath
      · rw [hmoved.held, Function.update_of_ne hother]
    · cases hanswer
    · cases hanswer
  · cases hstep

end Indexer

end Lawful

/-- **A failed file leaves no part of itself.**  After any history of a backend that keeps its
records itself, in a batch in which calls fail in any way, except that a removal of chunks does not
fail before its effect and that a failing removal or write of a document has none, every step that
failed without being cancelled leaves the store as it was before the step, or nothing at the path of
its file, depending on whether the failure came before or after the removal of the old version; what
stands at other paths stays. -/
theorem failed_file_leaves_no_part (indexer : Indexer) {kind : BackendKind} (hkind : kind ≠ .vector)
    (script : FaultScript) (calls : List IndexCall) {st st' : IndexState (ScriptedStore Backend)}
    {token : Cancellation} {now : Int}
    (hst : st = { (history indexer calls (freshState kind script)).2 with token, now })
    {store : String} {force : Bool} {batch : List SourceFile}
    {answer : Except IndexError IndexReport}
    (hrun : outcome (indexer.addFiles store force batch) st = (answer, st'))
    (hdrop : ¬ script.Late .dropDocuments) (hput : ¬ script.Late .putDocument)
    (hclean : ¬ script.Early .dropChunks)
    (hids : indexer.SeparatesPaths (calls.flatMap (·.operation.files) ++ batch)) :
    Accounts (indexer.steps store force batch st) batch answer ∧
      ∀ step ∈ indexer.steps store force batch st, ∀ e, step.answer = .error e → e ≠ .cancelled →
        ∃ before after, step.LeavesNoPart indexer store force before after := by
  obtain ⟨laws, hvalid, -, hempty⟩ := Backend.exists_lawful hkind
  have hfiles : ∀ call ∈ calls,
      call.operation.files ⊆ calls.flatMap (·.operation.files) ++ batch :=
    fun call hcall file hfile => List.mem_append_left _ (List.mem_flatMap.2 ⟨call, hcall, hfile⟩)
  obtain ⟨hst₁, hscript, hshelves⟩ := history_preserves indexer calls (freshState kind script)
    (P := fun shelf => shelf.Documented ∧ shelf.Sourced indexer _) hvalid
    ⟨Shelf.documented_empty, Shelf.sourced_empty⟩
    (fun shelf drop h => ⟨h.1.dropWhere drop, h.2.dropWhere drop⟩)
    (fun call hcall _ _ _ _ _ hbatch h =>
      ⟨hbatch.documented hclean hput h.1, hbatch.sourced (hfiles call hcall) h.2⟩)
    fun name shelf hshelf => by
      rw [show held (freshState kind script).store.store name = none from congrFun hempty name]
        at hshelf
      cases hshelf
  have hstore : (history indexer calls (freshState kind script)).2.store = st.store := by rw [hst]
  rw [hstore] at hst₁ hscript hshelves
  refine ⟨Indexer.accounts_steps hrun, fun step hstep e he _ => ?_⟩
  rw [← show st.store.script = script from hscript] at hdrop hput hclean
  exact Indexer.steps_leave_no_part hst₁ hshelves hids (List.subset_append_right _ _) hdrop hput
    hclean hstep he

/-- A script by which one document is not written, and the store is not found later. -/
def brokenWrites : FaultScript := fun earlierCalls method =>
  match earlierCalls, method with
  | 9, .putDocument => .failsBefore (.other "disk full")
  | 11, .findDocument => .failsBefore (.storeNotFound "s")
  | _, _ => .passes

/-- A store with one file. -/
def brokenStart : IndexState (ScriptedStore Backend) :=
  { (history windowing
      [{ operation := .createStore "s" }, { operation := .addFiles "s" false [⟨"a.txt", [120]⟩] }]
      (freshState .memory brokenWrites)).2 with
    token := .never, now := 0 }

/-- The next version of the file, which cannot be written, and a file that ends the batch. -/
def brokenBatch : List SourceFile := [⟨"a.txt", [121]⟩, ⟨"b.txt", [122]⟩]

theorem passes_or_before_brokenWrites (earlierCalls : Nat) (method : Method) :
    brokenWrites earlierCalls method = .passes ∨
      (method = .putDocument ∨ method = .findDocument) ∧
        ∃ e, brokenWrites earlierCalls method = .failsBefore e := by
  unfold brokenWrites
  split
  · exact .inr ⟨.inl rfl, _, rfl⟩
  · exact .inr ⟨.inr rfl, _, rfl⟩
  · exact .inl rfl

theorem failed_file_leaves_no_part_sample :
    ((windowing.steps "s" false brokenBatch brokenStart).map fun step =>
        match step.answer with
        | .ok _ => none
        | .error e => some e.message) = [some "store error: disk full", some "store not found: s"] ∧
      Accounts (windowing.steps "s" false brokenBatch brokenStart) brokenBatch
        (outcome (windowing.addFiles "s" false brokenBatch) brokenStart).1 ∧
      ∀ step ∈ windowing.steps "s" false brokenBatch brokenStart, ∀ e, step.answer = .error e →
        e ≠ .cancelled → ∃ before after, step.LeavesNoPart windowing "s" false before after := by
  refine ⟨by decide +kernel, failed_file_leaves_no_part windowing (by decide) brokenWrites _ rfl rfl
    ?_ ?_ ?_ ?_⟩
  · rintro ⟨n, e, h⟩
    obtain hpass | ⟨-, e', hbefore⟩ := passes_or_before_brokenWrites n .dropDocuments <;> simp_all
  · rintro ⟨n, e, h⟩
    obtain hpass | ⟨-, e', hbefore⟩ := passes_or_before_brokenWrites n .putDocument <;> simp_all
  · rintro ⟨n, e, h⟩
    obtain hpass | ⟨hmethod, -⟩ := passes_or_before_brokenWrites n .dropChunks <;> simp_all
  · refine Indexer.separatesPaths_of_cutOf TreeParser.steady_wholeFile
      (fun file => [Chunk.window .unknown 0 (Text.lines (decodeSource file).1)]) ?_ ?_
    all_goals decide +kernel

end CodeIndex
