import CodeIndex.Proofs.Index.Outcome
import CodeIndex.Proofs.Index.Versions

/-!
# What indexing a file does

The write sequence of one file is five store calls long: the document is looked up, its old version
is removed, the chunks are written, the document is written, and if one of the writes fails the
chunks are removed again.  Each of these calls can fail, before or after its effect.  `FileRun`
lists what comes of it: the answer, the shelf that is left behind and the number of failing calls.

## Main definitions

* `FileRun` are the ways in which a file can be indexed.

## Main results

* `fileRun_indexFile`: there are no others.
-/

namespace CodeIndex

open Indexing ScriptedStore
open LawfulStore (Valid)

/-- The answer, the shelf and the number of failing calls with which indexing a file can end. -/
inductive FileRun (indexer : Indexer) (script : FaultScript) (force : Bool) (file : SourceFile)
    (before : Shelf) : Except IndexError FileOutcome → Shelf → Nat → Prop
  /-- The shelf has the version of the file already. -/
  | skipped {stored : DocumentRecord} {chunks : Nat} : force = false →
      before.documents file.path = some stored → stored.documentId = file.versionId →
      FileRun indexer script force file before
        (.ok { path := file.path, documentId := file.versionId, status := .skipped, chunks })
        before 0
  | indexed {cut : List Chunk} {now : Int} : indexer.Cuts file cut →
      FileRun indexer script force file before
        (.ok { path := file.path, documentId := file.versionId, status := .indexed,
               chunks := cut.length })
        (before.written file cut now) 0
  /-- The file is not acceptable, it could not be cut or embedded, or the token has fired. -/
  | refused {e : IndexError} : (∀ store, e ≠ .notFound store) →
      FileRun indexer script force file before (.error e) before 0
  /-- A store call failed before anything was changed. -/
  | untouched {e : StoreError} {failed : Nat} :
      FileRun indexer script force file before (.error (.ofStore e)) before (failed + 1)
  /-- The old version has been removed. -/
  | removed {e : StoreError} {failed : Nat} :
      FileRun indexer script force file before (.error (.ofStore e))
        (before.dropDocuments [file.path]) (failed + 1)
  /-- A write failed, and what had been written of the file has been removed. -/
  | undone {cut : List Chunk} {e : StoreError} {failed : Nat} : indexer.Cuts file cut →
      FileRun indexer script force file before (.error (.ofStore e)) (before.wiped file cut)
        (failed + 1)
  /-- The chunks have been written and the document has not. -/
  | orphaned {cut : List Chunk} {e : StoreError} {failed : Nat} : indexer.Cuts file cut →
      script.Early .dropChunks →
      FileRun indexer script force file before (.error (.ofStore e)) (before.staged file cut)
        (failed + 1)
  /-- The document has been written, and its chunks have been removed. -/
  | hollow {cut : List Chunk} {now : Int} {e : StoreError} {failed : Nat} :
      indexer.Cuts file cut → script.Late .putDocument →
      FileRun indexer script force file before (.error (.ofStore e))
        ((before.wiped file cut).addDocument (file.document now)) (failed + 1)
  /-- Everything has been written, although an error was reported. -/
  | unreported {cut : List Chunk} {now : Int} {e : StoreError} {failed : Nat} :
      indexer.Cuts file cut → script.Late .putDocument →
      FileRun indexer script force file before (.error (.ofStore e))
        (before.written file cut now) (failed + 1)

namespace Indexer

variable {σ : Type}

/-! ## Cutting -/

theorem cut_ok {indexer : Indexer} {text : List Char} {language : Language}
    {st st' : IndexState σ} {cut : List Chunk}
    (h : outcome (indexer.cut text language) st = (.ok cut, st')) :
    (indexer.chunker.chunks text language indexer.options.window st.token).1 = .ok cut := by
  simp only [Indexer.cut, outcome_bind, outcome_get, outcome_set] at h
  split at h
  · next chunks hchunks =>
    obtain rfl : chunks = cut := Except.ok.inj (Prod.mk.inj h).1
    exact hchunks
  · cases (Prod.mk.inj h).1

/-- Embedding adds nothing but vectors. -/
theorem withVectors_ok {embedder : Embedder} {path : String} {chunks : List Chunk}
    {records found : List ChunkRecord} {st st' : IndexState σ}
    (h : outcome (withVectors embedder path chunks records) st = (.ok found, st')) :
    found.map ChunkRecord.plain = records.map ChunkRecord.plain := by
  unfold withVectors at h
  split at h
  · rw [outcome_pure] at h
    rw [Except.ok.inj (Prod.mk.inj h).1]
  · obtain ⟨vectors, middle, -, h⟩ | ⟨e, he, -⟩ := outcome_bind_cases h
    · split at h
      · cases (Prod.mk.inj h).1
      · next hlength =>
        rw [outcome_pure] at h
        rw [← Except.ok.inj (Prod.mk.inj h).1, List.map_zipWith]
        have hplain : ∀ (record : ChunkRecord) (vector : Vector32),
            ({ record with vector := some vector } : ChunkRecord).plain = record.plain :=
          fun _ _ => rfl
        simp only [hplain]
        rw [← List.map_uncurry_zip_eq_zipWith]
        exact (List.map_map ..).symm.trans
          (congrArg _ (List.map_fst_zip (by omega)))
    · cases he

theorem records_ok {indexer : Indexer} {file : SourceFile} {records : List ChunkRecord}
    {st st' : IndexState σ}
    (h : outcome (indexer.records file.versionId file.path (decodeSource file).1
      (decodeSource file).2) st = (.ok records, st')) :
    ∃ cut, indexer.Cuts file cut ∧ records.map ChunkRecord.plain = file.recordsOf cut := by
  unfold Indexer.records at h
  obtain ⟨cut, middle, hcut, h⟩ | ⟨e, he, -⟩ := outcome_bind_cases h
  · refine ⟨cut, ⟨st.token, cut_ok hcut⟩, ?_⟩
    split at h
    · rw [outcome_pure] at h
      rw [← Except.ok.inj (Prod.mk.inj h).1]
      exact file.map_plain_recordsOf cut
    · exact (withVectors_ok h).trans (file.map_plain_recordsOf cut)
  · cases he

/-! ## Errors that no store call causes -/

theorem validate_error {options : IndexSettings} {file : SourceFile} {e : IndexError}
    (h : validate options file = .error e) : ∃ reason, e = .invalidDocument reason := by
  unfold validate at h
  split at h
  · exact ⟨_, (Except.error.inj h).symm⟩
  · split at h
    · exact ⟨_, (Except.error.inj h).symm⟩
    · split at h
      · exact ⟨_, (Except.error.inj h).symm⟩
      · cases h

theorem withVectors_ne_notFound {embedder : Embedder} {path : String} {chunks : List Chunk}
    {records : List ChunkRecord} {st st' : IndexState σ} {e : IndexError}
    (h : outcome (withVectors embedder path chunks records) st = (.error e, st')) (store : String) :
    e ≠ .notFound store := by
  rintro rfl
  unfold withVectors at h
  split at h
  · cases (Prod.mk.inj h).1
  · obtain ⟨vectors, middle, -, h⟩ | ⟨e, he, hembed⟩ := outcome_bind_cases h
    · split at h <;> cases (Prod.mk.inj h).1
    · obtain rfl := Except.error.inj he
      simp only [embed, outcome_bind, outcome_get, outcome_set] at hembed
      split at hembed <;> cases (Prod.mk.inj hembed).1

theorem records_ne_notFound {indexer : Indexer} {documentId path : String} {text : List Char}
    {language : Language} {st st' : IndexState σ} {e : IndexError}
    (h : outcome (indexer.records documentId path text language) st = (.error e, st'))
    (store : String) : e ≠ .notFound store := by
  unfold Indexer.records at h
  obtain ⟨cut, middle, -, h⟩ | ⟨e, he, hcut⟩ := outcome_bind_cases h
  · split at h
    · cases (Prod.mk.inj h).1
    · exact withVectors_ne_notFound h store
  · obtain rfl := Except.error.inj he
    rintro rfl
    simp only [Indexer.cut, outcome_bind, outcome_get, outcome_set] at hcut
    split at hcut
    · cases (Prod.mk.inj hcut).1
    · next parseError _ =>
      cases parseError <;> cases (Prod.mk.inj hcut).1

/-! ## The parts of the write sequence -/

section Store

variable [RecordStore σ]

/-- Write the chunks and the document of a file. -/
def writeFile (store : String) (file : SourceFile) (records : List ChunkRecord) :
    Indexing σ FileOutcome := do
  writing store (records.map (·.chunkId)) (RecordStore.putChunks store records)
  writing store (records.map (·.chunkId))
    (RecordStore.putDocument store (file.document (← get).now))
  return { path := file.path, documentId := file.versionId, status := .indexed,
           chunks := records.length }

/-- Replace whatever is stored at the path of a file. -/
def replaceFile (store : String) (file : SourceFile) (existing : Option DocumentRecord)
    (records : List ChunkRecord) : Indexing σ FileOutcome :=
  if existing.isSome then do
    discard (call (RecordStore.dropDocuments store [file.path]))
    writeFile store file records
  else writeFile store file records

theorem indexFile_eq (indexer : Indexer) (store : String) (force : Bool) (file : SourceFile) :
    (indexer.indexFile store force file : Indexing σ FileOutcome) = (do
      ExceptT.mk (pure (validate indexer.options file))
      let existing ← call (RecordStore.findDocument store file.path)
      match existing.filter fun document => !force && document.documentId == file.versionId with
      | some document =>
        return { path := file.path, documentId := file.versionId, status := .skipped,
                 chunks := document.chunkIds.length }
      | none =>
        let records ← indexer.records file.versionId file.path (decodeSource file).1
          (decodeSource file).2
        checkpoint
        replaceFile store file existing records) := by
  unfold indexFile replaceFile
  rfl

end Store

/-! ## Writing -/

section Lawful

variable [RecordStore σ] [LawfulStore σ] {indexer : Indexer} {force : Bool} {file : SourceFile}
  {cut : List Chunk} {records : List ChunkRecord} {name : String} {before : Shelf}
  {st st' : IndexState (ScriptedStore σ)} {answer : Except IndexError FileOutcome}

/-- A write that fails is followed by an attempt to remove the chunks that have been written. -/
theorem outcome_writing_cases {α : Type} {ids : List String} {call : StoreCall σ Unit}
    {next : Unit → Indexing (ScriptedStore σ) α} {change : Shelf → Shelf} {able : Prop}
    (hchanges : Changes (Valid : σ → Prop) name call change able) {method : Method}
    {answer : Except IndexError α} (hst : Valid st.store.store)
    (hbefore : held st.store.store name = some before)
    (h : outcome (writing name ids (scripted method call) >>= next) st = (answer, st')) :
    (∃ middle, Moves name (some (change before)) 0 st.store middle.store ∧
        outcome (next ()) middle = (answer, st')) ∨
      ∃ (e : StoreError) (middle after : Shelf) (answer' : Except StoreError Nat) (failed : Nat),
        answer = .error (.ofStore e) ∧
        ChangeEnd (α := Unit) st.store.script method able before change (.error e) middle 1 ∧
        ChangeEnd st.store.script .dropChunks True middle (·.dropChunks ids) answer' after failed ∧
        Moves name (some after) (1 + failed) st.store st'.store := by
  obtain ⟨middle, failed, hend, hmoves⟩ := hchanges.scripted method hst hbefore
  simp only [writing, outcome_bind, outcome_attempt, outcome_call] at h
  generalize (scripted method call st.store).1 = answered at h hend
  cases answered with
  | ok a =>
    cases hend with
    | made => exact .inl ⟨_, hmoves, h⟩
  | error e =>
    obtain rfl : failed = 1 := by cases hend <;> rfl
    obtain ⟨after, failed', hend', hmoves'⟩ :=
      (LawfulStore.dropChunks name ids).scripted .dropChunks hmoves.valid hmoves.held_self
    simp only [Except.mapError, outcome_bind, outcome_discard, outcome_attempt, outcome_call,
      Except.map, outcome_throw] at h
    obtain ⟨rfl, rfl⟩ := Prod.mk.inj h
    rw [hmoves.script] at hend'
    exact .inr ⟨e, middle, after, _, failed', rfl, hend, hend', hmoves.trans hmoves'⟩

theorem map_chunkId_of_plain (h : records.map ChunkRecord.plain = file.recordsOf cut) :
    records.map (·.chunkId) = file.idsOf cut := by
  rw [SourceFile.idsOf, ← h, List.map_map]
  rfl

theorem addChunks_of_plain (h : records.map ChunkRecord.plain = file.recordsOf cut)
    (shelf : Shelf) : shelf.addChunks records = shelf.addChunks (file.recordsOf cut) := by
  rw [← h, Shelf.addChunks_map_plain]

/-- Writing a file when its old version is gone. -/
theorem fileRun_writeFile (hcut : indexer.Cuts file cut)
    (hplain : records.map ChunkRecord.plain = file.recordsOf cut) (hst : Valid st.store.store)
    (hheld : held st.store.store name = some (before.dropDocuments [file.path]))
    (h : outcome (writeFile name file records) st = (answer, st')) :
    ∃ after failed, FileRun indexer st.store.script force file before answer after failed ∧
      Moves name (some after) failed st.store st'.store := by
  have hids := map_chunkId_of_plain hplain
  have hadded : (before.dropDocuments [file.path]).addChunks records = before.staged file cut :=
    addChunks_of_plain hplain (before.dropDocuments [file.path])
  unfold writeFile at h
  obtain ⟨st₁, hstaged, h⟩ | ⟨e, middle, after, _, failed, rfl, hwrite, hdiscard, hmoves⟩ :=
    outcome_writing_cases (LawfulStore.putChunks name records) hst hheld h
  · rw [hadded] at hstaged
    rw [outcome_bind, outcome_get] at h
    obtain ⟨st₂, hwritten, h⟩ | ⟨e, middle, after, _, failed, rfl, hwrite, hdiscard, hmoves⟩ :=
      outcome_writing_cases (LawfulStore.putDocument name (file.document _)) hstaged.valid
        hstaged.held_self h
    · obtain ⟨rfl, rfl⟩ := Prod.mk.inj h
      have hlength : records.length = cut.length := by
        simpa [SourceFile.recordsOf] using congrArg List.length hplain
      rw [hlength]
      exact ⟨_, _, .indexed hcut, hstaged.followed hwritten⟩
    · rw [hstaged.script] at hwrite hdiscard
      rw [hids] at hdiscard
      rw [Nat.add_comm] at hmoves
      refine ⟨after, failed + 1, ?_, hstaged.followed hmoves⟩
      cases hwrite with
      | early _ =>
        cases hdiscard with
        | early hearly => exact .orphaned hcut (hearly trivial)
        | _ =>
          rw [Shelf.dropChunks_staged]
          exact .undone hcut
      | late hlate =>
        cases hdiscard with
        | early _ => exact .unreported hcut hlate
        | _ =>
          rw [Shelf.dropChunks_addDocument, Shelf.dropChunks_staged]
          exact .hollow hcut hlate
  · rw [hids] at hdiscard
    rw [Nat.add_comm] at hmoves
    refine ⟨after, failed + 1, ?_, hmoves⟩
    cases hwrite with
    | early _ =>
      cases hdiscard with
      | early _ => exact .removed
      | _ => exact .undone hcut
    | late _ =>
      rw [hadded] at hdiscard
      cases hdiscard with
      | early hearly => exact .orphaned hcut (hearly trivial)
      | _ =>
        rw [Shelf.dropChunks_staged]
        exact .undone hcut

theorem fileRun_replaceFile {existing : Option DocumentRecord} (hcut : indexer.Cuts file cut)
    (hplain : records.map ChunkRecord.plain = file.recordsOf cut) (hst : Valid st.store.store)
    (hheld : held st.store.store name = some before)
    (hexisting : existing = none → before.documents file.path = none)
    (h : outcome (replaceFile name file existing records) st = (answer, st')) :
    ∃ after failed, FileRun indexer st.store.script force file before answer after failed ∧
      Moves name (some after) failed st.store st'.store := by
  unfold replaceFile at h
  split at h
  · rw [discard, map_const, Function.comp_apply, bind_map_left] at h
    obtain ⟨_, st₁, hremoved, h⟩ | ⟨e, after, rfl, hend, hmoves⟩ :=
      outcome_change_cases (LawfulStore.dropDocuments name [file.path]) hst hheld h
    · obtain ⟨after, failed, hrun, hmoves⟩ :=
        fileRun_writeFile hcut hplain hremoved.valid hremoved.held_self h
      rw [hremoved.script] at hrun
      exact ⟨after, failed, hrun, hremoved.followed hmoves⟩
    · cases hend with
      | early _ => exact ⟨before, 1, .untouched, hmoves⟩
      | late _ => exact ⟨_, 1, .removed, hmoves⟩
  · next hnone =>
    rw [Option.not_isSome_iff_eq_none] at hnone
    rw [← Shelf.dropDocuments_of_none (hexisting hnone)] at hheld
    exact fileRun_writeFile hcut hplain hst hheld h

/-- Every run of `indexFile` is a `FileRun`. -/
theorem fileRun_indexFile (hst : Valid st.store.store)
    (hheld : held st.store.store name = some before)
    (h : outcome (indexer.indexFile name force file) st = (answer, st')) :
    ∃ after failed, FileRun indexer st.store.script force file before answer after failed ∧
      Moves name (some after) failed st.store st'.store := by
  rw [indexFile_eq] at h
  obtain ⟨_, st₀, hvalid, h⟩ | ⟨e, rfl, hvalid⟩ := outcome_bind_cases h
  all_goals obtain ⟨hanswer, rfl⟩ := Prod.mk.inj hvalid
  swap
  · obtain ⟨reason, rfl⟩ := validate_error hanswer
    exact ⟨before, 0, .refused fun _ => by simp, .refl hst hheld⟩
  obtain ⟨existing, st₁, hlists, hread, h⟩ | ⟨e, rfl, hmoves⟩ :=
    outcome_read_cases (LawfulStore.findDocument name file.path) hst hheld h
  swap
  · exact ⟨before, 1, .untouched, hmoves⟩
  split at h
  · next document hmatch =>
    obtain ⟨rfl, rfl⟩ := Prod.mk.inj h
    obtain ⟨rfl, hversion⟩ := Option.filter_eq_some_iff.1 hmatch
    rw [Bool.and_eq_true, Bool.not_eq_true', beq_iff_eq] at hversion
    generalize hstored : before.documents file.path = stored at hlists
    cases hlists with
    | some hlisted =>
      refine ⟨before, 0, .skipped hversion.1 hstored ?_, hread⟩
      rw [← hversion.2, ← hlisted.bare, DocumentRecord.documentId_bare]
  · obtain ⟨records, st₂, hrecords, h⟩ | ⟨e, rfl, hrecords⟩ := outcome_bind_cases h
    all_goals have hmade := (indexer.storeless_records _ _ _ _).moves hread hrecords
    swap
    · exact ⟨before, 0, .refused (records_ne_notFound hrecords), hmade⟩
    obtain ⟨_, st₃, hcheck, h⟩ | ⟨e, rfl, hcheck⟩ := outcome_bind_cases h
    all_goals have hchecked := storeless_checkpoint.moves hmade hcheck
    swap
    · obtain rfl := checkpoint_error hcheck
      exact ⟨before, 0, .refused (fun _ => by simp), hchecked⟩
    obtain ⟨cut, hcut, hplain⟩ := records_ok hrecords
    have hexisting : existing = none → before.documents file.path = none := by
      rintro rfl
      generalize before.documents file.path = stored at hlists
      cases hlists
      rfl
    obtain ⟨after, failed, hrun, hmoves⟩ :=
      fileRun_replaceFile hcut hplain hchecked.valid hchecked.held_self hexisting h
    rw [hchecked.script] at hrun
    exact ⟨after, failed, hrun, hchecked.followed hmoves⟩

end Lawful

end Indexer

end CodeIndex
