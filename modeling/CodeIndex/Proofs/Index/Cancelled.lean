import CodeIndex.Proofs.Index.Abreast
import CodeIndex.Proofs.Index.Healing
import CodeIndex.Proofs.Index.Lifecycle
import CodeIndex.Proofs.Store.History

/-!
# Cancelled batches

A batch can be cancelled between two files, while a file is cut or embedded, and before the old
version of a file is removed.  From then on nothing asks the token any more, so a file that is
cancelled has only been looked up.  What a cancelled batch leaves is therefore what the files before
that one leave, brought in without a token.

## Main definitions

* `LookedUp` says that nothing but a lookup lies between two states of a store.
* `Shelf.Includes` says that the complete version of a file stands on a shelf.
* `Shelf.WholeVersions` compares two shelves path by path: what stands there has stood there before,
  or it is the complete version of a file.

## Main results

* `Indexer.indexFile_cancelled`: a file that is cancelled has only been looked up.
* `Indexer.indexBatch_cons_cancelled`: where a batch is cancelled, as seen from its first file.
* `Indexer.CalmedBy.addFiles_cancelled`: a cancelled batch is a calm one of the first files.
* `cancelled_on_file_boundary`: the same for the backends, and what stands at every path.
-/

namespace CodeIndex

open Indexing ScriptedStore
open LawfulStore (Valid)

/-! ## Where a file can be cancelled -/

namespace Indexer

variable {σ : Type} [RecordStore σ] {indexer calm : Indexer} {store : String} {force : Bool}

theorem unstoppable_writing (store : String) (ids : List String) (request : StoreCall σ Unit) :
    Unstoppable (writing store ids request) := by
  intro st
  have hcall := unstoppable_call request st
  unfold writing
  rw [outcome_bind, outcome_attempt]
  dsimp only
  generalize outcome (call request) st = made at hcall
  obtain ⟨answer, middle⟩ := made
  cases answer with
  | ok _ => exact unstoppable_pure () middle
  | error e =>
    have hthrow : Unstoppable (throw e : Indexing σ Unit) :=
      unstoppable_throw fun he => hcall (congrArg Except.error he)
    exact (unstoppable_attempt _).discard.bind (fun _ => hthrow) middle

/-- Nothing is cancelled once the old version of a file can have been removed. -/
theorem unstoppable_replaceFile (store : String) (file : SourceFile)
    (existing : Option DocumentRecord) (records : List ChunkRecord) :
    Unstoppable (replaceFile store file existing records : Indexing σ FileOutcome) := by
  have hwrite : Unstoppable (writeFile store file records : Indexing σ FileOutcome) := by
    refine (unstoppable_writing _ _ _).bind fun _ => ?_
    refine Unstoppable.bind (fun _ => nofun) fun _ => ?_
    exact (unstoppable_writing _ _ _).bind fun _ => unstoppable_pure _
  unfold replaceFile
  split
  · exact (unstoppable_call _).discard.bind fun _ => hwrite
  · exact hwrite

theorem unstoppable_checkExists (store : String) :
    Unstoppable (checkExists store : Indexing σ Unit) := by
  unfold checkExists
  refine (unstoppable_call _).bind fun there => ?_
  split
  · exact unstoppable_throw nofun
  · exact unstoppable_pure _

/-- A file that is cancelled has only been looked up. -/
theorem indexFile_cancelled {file : SourceFile} {st st' : IndexState σ}
    (h : outcome (indexer.indexFile store force file) st = (.error .cancelled, st')) :
    ∃ found, RecordStore.findDocument store file.path st.store = (.ok found, st'.store) := by
  rw [indexFile_eq] at h
  obtain ⟨_, st₀, hvalid, h⟩ | ⟨e, he, hvalid⟩ := outcome_bind_cases h
  swap
  · obtain ⟨reason, rfl⟩ := validate_error (Prod.mk.inj hvalid).1
    cases he
  obtain ⟨-, rfl⟩ := Prod.mk.inj hvalid
  obtain ⟨existing, st₁, hfind, h⟩ | ⟨e, he, hfind⟩ := outcome_bind_cases h
  swap
  · obtain rfl := Except.error.inj he
    exact absurd (congrArg Prod.fst hfind) (unstoppable_call _ _)
  have hlookup : RecordStore.findDocument store file.path st.store = (.ok existing, st₁.store) := by
    rw [outcome_call] at hfind
    generalize RecordStore.findDocument store file.path st.store = made at hfind
    obtain ⟨answer, after⟩ := made
    obtain ⟨hanswer, rfl⟩ := Prod.mk.inj hfind
    cases answer with
    | ok a => rw [Except.ok.inj hanswer]
    | error e => cases hanswer
  refine ⟨existing, hlookup.trans (congrArg (Prod.mk _) ?_)⟩
  split at h
  · cases (Prod.mk.inj h).1
  · obtain ⟨records, st₂, hrecords, h⟩ | ⟨e, he, hrecords⟩ := outcome_bind_cases h
    all_goals
      have hmade := indexer.storeless_records file.versionId file.path (decodeSource file).1
        (decodeSource file).2 st₁
      rw [hrecords] at hmade
    swap
    · exact hmade.symm
    obtain ⟨_, st₃, hcheck, h⟩ | ⟨e, he, hcheck⟩ := outcome_bind_cases h
    all_goals
      have hchecked := storeless_checkpoint st₂
      rw [hcheck] at hchecked
    swap
    · exact (hchecked.trans hmade).symm
    exact absurd (congrArg Prod.fst h) (unstoppable_replaceFile store file existing records st₃)

end Indexer

/-! ## Where a batch is cancelled -/

/-- The second state of a store is the first one, but for a lookup that was answered. -/
inductive LookedUp {σ : Type} [RecordStore σ] (store : String) (s : σ) : σ → Prop
  | same : LookedUp store s s
  | once {path : String} {found : Option DocumentRecord} {s' : σ} :
      RecordStore.findDocument store path s = (.ok found, s') → LookedUp store s s'

/-- A batch that goes on after its first file. -/
theorem Indexer.outcome_indexBatch_cons {σ : Type} [RecordStore σ] {indexer : Indexer}
    {store : String} {force : Bool} {report : IndexReport} {file : SourceFile}
    {rest : List SourceFile} {st st₁ st₂ : IndexState σ} {answer : Except IndexError FileOutcome}
    (hcheck : outcome checkpoint st = (.ok (), st₁))
    (hfile : outcome (indexer.indexFile store force file) st₁ = (answer, st₂))
    (hgoes : ∀ e, answer = .error e → e.endsBatch = false) :
    outcome (indexer.indexBatch store force report (file :: rest)) st =
      outcome (indexer.indexBatch store force (report.record (.ofAnswer file answer)) rest)
        st₂ := by
  rw [indexBatch, outcome_bind, hcheck]
  dsimp only
  rw [outcome_bind, outcome_attempt, hfile]
  cases answer with
  | ok outcome => rfl
  | error e =>
    dsimp only
    rw [hgoes e rfl]
    rfl

/-- A cancelled batch has looked up its first file at most, or it goes on after that file and is
cancelled later. -/
theorem Indexer.indexBatch_cons_cancelled {σ : Type} [RecordStore σ] {indexer : Indexer}
    {store : String} {force : Bool} {report : IndexReport} {file : SourceFile}
    {rest : List SourceFile} {st st₁ : IndexState σ}
    (h : outcome (indexer.indexBatch store force report (file :: rest)) st =
      (.error .cancelled, st₁)) :
    LookedUp store st.store st₁.store ∨ ∃ answer st₂ st₃,
      outcome checkpoint st = (.ok (), st₂) ∧
      outcome (indexer.indexFile store force file) st₂ = (answer, st₃) ∧
      (∀ e, answer = .error e → e.endsBatch = false) ∧
      outcome (indexer.indexBatch store force (report.record (.ofAnswer file answer)) rest) st₃ =
        (.error .cancelled, st₁) := by
  have hstart := h
  unfold indexBatch at hstart
  have hstill := storeless_checkpoint st
  obtain ⟨_, st₂, hcheck, hstart⟩ | ⟨e, -, hcheck⟩ := outcome_bind_cases hstart
  all_goals rw [hcheck] at hstill
  swap
  · exact .inl (hstill ▸ .same)
  rw [outcome_bind, outcome_attempt] at hstart
  cases hfile : outcome (indexer.indexFile store force file) st₂ with
  | mk answer st₃ =>
    rw [hfile] at hstart
    by_cases hends : ∃ e, answer = .error e ∧ e.endsBatch = true
    · -- The error of the file is the answer of the batch.
      obtain ⟨e, rfl, hends⟩ := hends
      dsimp only at hstart
      rw [if_pos hends] at hstart
      obtain ⟨he, rfl⟩ := Prod.mk.inj hstart
      obtain rfl : e = .cancelled := Except.error.inj he
      obtain ⟨found, hfound⟩ := indexFile_cancelled hfile
      rw [show st₂.store = st.store from hstill] at hfound
      exact .inl (.once hfound)
    · have hgoes : ∀ e, answer = .error e → e.endsBatch = false :=
        fun e he => Bool.eq_false_iff.2 fun htrue => hends ⟨e, he, htrue⟩
      rw [outcome_indexBatch_cons hcheck hfile hgoes] at h
      exact .inr ⟨answer, st₂, st₃, hcheck, hfile, hgoes, h⟩

namespace Indexer.CalmedBy

variable {σ : Type} [RecordStore σ] {R : σ → σ → Prop} {indexer calm : Indexer}
  {store : String} {force : Bool} {files : List SourceFile} {st st₁ : IndexState σ}

/-- A cancelled batch is a calm batch of its first files, but for the lookup of the next one. -/
theorem indexBatch_cancelled (h : indexer.CalmedBy calm) (hR : Lockstep R) {report : IndexReport}
    (hrun : outcome (indexer.indexBatch store force report files) st = (.error .cancelled, st₁)) :
    ∃ j ≤ files.length, ∃ middle, LookedUp store middle st₁.store ∧
      ∀ st', Abreast R st st' → ∃ report' st₁',
        outcome (calm.indexBatch store force report (files.take j)) st' = (.ok report', st₁') ∧
          R middle st₁'.store := by
  induction files generalizing st report with
  | nil => cases (Prod.mk.inj hrun).1
  | cons file rest ih =>
    obtain hlooked | ⟨answer, st₂, st₃, hcheck, hfile, hgoes, hrest⟩ :=
      indexBatch_cons_cancelled hrun
    · exact ⟨0, Nat.zero_le _, st.store, hlooked, fun st' hst => ⟨report, st', rfl, hst.store⟩⟩
    · obtain ⟨j, hj, middle, hlooked, hbatch⟩ := ih hrest
      refine ⟨j + 1, Nat.succ_le_succ hj, middle, hlooked, fun st' hst => ?_⟩
      have hanswer : answer ≠ .error .cancelled := fun he => by cases hgoes _ he
      -- The calm run brings the file in as well, and goes on with the same report.
      obtain ⟨st₂', hcheck', hst₂⟩ := InStep.checkpoint.follows hst hcheck (by simp)
      obtain ⟨st₃', hfile', hst₃⟩ := (h.indexFile hR store force file).follows hst₂ hfile hanswer
      obtain ⟨report', st₁', hcalm, hmiddle⟩ := hbatch st₃' hst₃
      refine ⟨report', st₁', ?_, hmiddle⟩
      rw [List.take_succ_cons, outcome_indexBatch_cons hcheck' hfile' hgoes]
      exact hcalm

/-- A cancelled batch is a calm batch of its first files, but for the lookup of the next one. -/
theorem addFiles_cancelled (h : indexer.CalmedBy calm) (hR : Lockstep R)
    (hrun : outcome (indexer.addFiles store force files) st = (.error .cancelled, st₁)) :
    ∃ j ≤ files.length, ∃ middle, LookedUp store middle st₁.store ∧
      ∀ st', Abreast R st st' → ∃ report st₁',
        outcome (calm.addFiles store force (files.take j)) st' = (.ok report, st₁') ∧
          R middle st₁'.store := by
  obtain ⟨_, st₂, hexists, hbatch⟩ | ⟨e, he, hexists⟩ := outcome_bind_cases hrun
  swap
  · obtain rfl := Except.error.inj he
    exact absurd (congrArg Prod.fst hexists) (unstoppable_checkExists store st)
  obtain ⟨j, hj, middle, hlooked, hcalm⟩ := h.indexBatch_cancelled hR hbatch
  refine ⟨j, hj, middle, hlooked, fun st' hst => ?_⟩
  obtain ⟨st₂', hexists', hst₂⟩ :=
    (inStep_checkExists hR store).follows hst hexists (by simp)
  obtain ⟨report, st₁', hbatch', hmiddle⟩ := hcalm st₂' hst₂
  refine ⟨report, st₁', ?_, hmiddle⟩
  rw [addFiles, outcome_bind, hexists']
  exact hbatch'

end Indexer.CalmedBy

/-! ## What a batch leaves at every path -/

/-- The document of a file and all its chunks stand on the shelf. -/
structure Shelf.Includes (shelf : Shelf) (indexer : Indexer) (file : SourceFile) : Prop where
  document : ∃ now, shelf.documents file.path = some (file.document now)
  chunks : ∃ cut, indexer.Cuts file cut ∧
    ∀ record ∈ file.recordsOf cut, shelf.chunks record.chunkId = some record

/-- At every path stands what has stood there, or the complete version of one of the files; and
nothing beside that version, unless chunks have stood there without a document. -/
def Shelf.WholeVersions (before after : Shelf) (indexer : Indexer) (files : List SourceFile) :
    Prop :=
  ∀ path, SameAt path after before ∨ ∃ file ∈ files, file.path = path ∧
    after.Includes indexer file ∧
    ((before.documents path).isSome ∨ before.Vacant path → after.Holds indexer file)

section Versions

variable {indexer : Indexer} {script : FaultScript} {force : Bool} {files : List SourceFile}
  {file other : SourceFile} {cut cut' : List Chunk} {shelf before middle after : Shelf}
  {failed : Nat}

namespace Shelf

theorem Includes.of_sameAt (h : before.Includes indexer file)
    (hsame : SameAt file.path after before) : after.Includes indexer file := by
  obtain ⟨now, hnow⟩ := h.document
  obtain ⟨cut, hcut, hchunks⟩ := h.chunks
  refine ⟨⟨now, hsame.documents.trans hnow⟩, cut, hcut, fun record hrecord => ?_⟩
  exact (hsame.chunks _ record (SourceFile.path_of_mem_recordsOf hrecord)).2
    (hchunks record hrecord)

theorem WholeVersions.refl (shelf : Shelf) (indexer : Indexer) (files : List SourceFile) :
    shelf.WholeVersions shelf indexer files :=
  fun path => .inl (.refl path shelf)

theorem WholeVersions.trans {first second : List SourceFile}
    (h : before.WholeVersions middle indexer first)
    (h' : middle.WholeVersions after indexer second) :
    before.WholeVersions after indexer (first ++ second) := by
  intro path
  obtain hsame | ⟨file, hfile, rfl, hincludes, hholds⟩ := h' path
  · obtain hsame' | ⟨file, hfile, rfl, hincludes, hholds⟩ := h path
    · exact .inl (hsame.trans hsame')
    · exact .inr ⟨file, List.mem_append_left _ hfile, rfl, hincludes.of_sameAt hsame,
        fun hclean => (hholds hclean).of_sameAt hsame⟩
  · refine .inr ⟨file, List.mem_append_right _ hfile, rfl, hincludes, fun hclean => hholds ?_⟩
    obtain hsame' | ⟨earlier, -, hpath, hincludes', -⟩ := h file.path
    · rw [hsame'.documents]
      exact hclean.imp_right fun hvacant => hvacant.of_sameAt hsame'
    · obtain ⟨now, hnow⟩ := hincludes'.document
      rw [← hpath, hnow]
      exact .inl rfl

/-- The chunks of another file are spared when their identifiers are kept apart. -/
theorem Spares.written (h : shelf.Spares file cut) (hids : indexer.SeparatesPaths files)
    (hfile : file ∈ files) (hcut : indexer.Cuts file cut) (hother : other ∈ files)
    (hcut' : indexer.Cuts other cut') (now : Int) :
    (shelf.written other cut' now).Spares file cut := by
  intro id hid record hrecord
  obtain ⟨chunk, hchunk, hchunkid, rfl⟩ | ⟨-, hbefore⟩ := chunks_addChunks_cases hrecord
  · obtain ⟨record, hmem, rfl⟩ := List.mem_map.1 hid
    rw [ChunkRecord.path_plain, SourceFile.path_of_mem_recordsOf hchunk]
    exact hids other hother file hfile cut' cut hcut' hcut chunk hchunk record hmem hchunkid
  · exact h.dropDocuments [other.path] id hid record hbefore

theorem wholeVersions_written (hids : indexer.SeparatesChunks files) (hfile : file ∈ files)
    (hcut : indexer.Cuts file cut) (hspares : shelf.Spares file cut) (now : Int) :
    shelf.WholeVersions (shelf.written file cut now) indexer [file] := by
  intro path
  by_cases hpath : file.path = path
  · refine .inr ⟨file, List.mem_singleton.2 rfl, hpath, ⟨⟨now, if_pos rfl⟩, cut, hcut, ?_⟩, ?_⟩
    · exact fun record hrecord =>
        ((chunks_written_iff hids hfile hcut now).2 (.inl ⟨hrecord, rfl⟩)).1
    · rintro (hdocument | hvacant)
      · exact holds_written hids hfile hcut now (.inl (hpath ▸ hdocument))
      · refine holds_written hids hfile hcut now (.inr fun id record hstored hrecord => ?_)
        exact absurd (hrecord.trans hpath) (hvacant.chunks id record hstored)
  · exact .inl (hspares.sameAt_written hpath now)

end Shelf

/-- Without a failing call a file is written completely or not at all. -/
theorem FileRun.kept_or_written {answer : Except IndexError FileOutcome}
    (h : FileRun indexer script force file before answer after failed) (hfailed : failed = 0) :
    after = before ∨ ∃ cut now, indexer.Cuts file cut ∧ after = before.written file cut now := by
  cases h with
  | skipped _ _ _ | refused _ => exact .inl rfl
  | indexed hcut => exact .inr ⟨_, _, hcut, rfl⟩
  | _ => cases hfailed

/-- Without a failing call a batch leaves whole versions, wherever it ends. -/
theorem BatchRun.wholeVersions {batch : List SourceFile}
    {outcomes : Except IndexError (List FileOutcome)}
    (h : BatchRun indexer script force batch before outcomes after failed) (hfailed : failed = 0)
    (hpaths : indexer.SeparatesPaths files) (hchunks : indexer.SeparatesChunks files)
    (hbatch : batch ⊆ files)
    (hspares : ∀ file ∈ files, ∀ cut, indexer.Cuts file cut → before.Spares file cut) :
    before.WholeVersions after indexer batch := by
  induction h with
  | done | stopped => exact .refl _ indexer _
  | @aborted file rest before after _ _ hfile _ =>
    obtain rfl | ⟨cut, now, hcut, rfl⟩ := hfile.kept_or_written hfailed
    · exact .refl after indexer _
    · have hmem := (List.cons_subset.1 hbatch).1
      exact (Shelf.wholeVersions_written hchunks hmem hcut (hspares file hmem cut hcut) now).trans
        (.refl _ indexer rest)
  | @noted file rest before middle after _ _ _ _ hfile _ _ ih =>
    obtain ⟨hmem, hrest⟩ := List.cons_subset.1 hbatch
    obtain ⟨hfirst, hlater⟩ := Nat.add_eq_zero_iff.1 hfailed
    obtain rfl | ⟨cut, now, hcut, rfl⟩ := hfile.kept_or_written hfirst
    · exact (Shelf.WholeVersions.refl middle indexer [file]).trans (ih hlater hrest hspares)
    · refine (Shelf.wholeVersions_written hchunks hmem hcut (hspares file hmem cut hcut) now).trans
        (ih hlater hrest fun other hother cut' hcut' => ?_)
      exact (hspares other hother cut' hcut').written hpaths hother hcut' hmem hcut now

/-- Without a failing call `addFiles` leaves whole versions, and all other stores alone. -/
theorem Indexer.addFiles_wholeVersions {σ : Type} [RecordStore σ] [LawfulStore σ] {name : String}
    {st st' : IndexState (ScriptedStore σ)} {answer : Except IndexError IndexReport}
    (hst : Valid st.store.store) (hheld : held st.store.store name = some before)
    (hrun : outcome (indexer.addFiles name force files) st = (answer, st'))
    (hfailures : st'.store.failures = st.store.failures)
    (hpaths : indexer.SeparatesPaths files) (hchunks : indexer.SeparatesChunks files)
    (hspares : ∀ file ∈ files, ∀ cut, indexer.Cuts file cut → before.Spares file cut) :
    ∃ after, held st'.store.store = Function.update (held st.store.store) name (some after) ∧
      before.WholeVersions after indexer files := by
  obtain ⟨shelf, middle, hshelf, hmoves, hbatch⟩ | ⟨-, hnone, -⟩ | ⟨_, -, hmoves⟩ :=
    outcome_checkExists_cases hst hrun
  · obtain rfl : before = shelf := Option.some.inj (hheld.symm.trans hshelf)
    obtain ⟨_, after, failed, hruns, -, hmoved⟩ :=
      batchRun_indexBatch hmoves.valid hmoves.held_self hbatch
    have hall := hmoves.followed hmoved
    have hnone : failed = 0 := by
      have := hall.failures
      omega
    exact ⟨after, hall.held,
      hruns.wholeVersions hnone hpaths hchunks (List.Subset.refl files) hspares⟩
  · cases hheld.symm.trans hnone
  · have := hmoves.failures
    omega

end Versions

/-! ## The backends -/

/-- A lookup leaves the backend as it is, and if it is answered it has not failed. -/
theorem LookedUp.eq_of_backend {store : String} {s s' : ScriptedStore Backend}
    (h : LookedUp store s s') : s'.store = s.store ∧ s'.failures = s.failures := by
  cases h with
  | same => exact ⟨rfl, rfl⟩
  | @once path found _ hfound =>
    have hanswer := congrArg Prod.fst hfound
    obtain rfl : (RecordStore.findDocument store path s).2 = s' := congrArg Prod.snd hfound
    exact ⟨(ScriptedStore.store_of_ok hanswer).trans (Backend.snd_findDocument store path s.store),
      ScriptedStore.failures_of_ok hanswer⟩

/-- **A cancelled batch stops between two files.**  Whatever the store and wherever the token fires,
the store is left as a batch of the first files leaves it that is never told to stop, but for the
times of the documents.  So if no call fails and the backend keeps its records itself, there are
whole versions at every path, as long as no identifier is shared by chunks at two paths or by two
chunks of one file. -/
theorem cancelled_on_file_boundary {indexer calm : Indexer} (hcalm : indexer.CalmedBy calm)
    {store : String} {force : Bool} {files : List SourceFile}
    {st st' : IndexState (ScriptedStore Backend)}
    (hrun : outcome (indexer.addFiles store force files) st = (.error .cancelled, st')) :
    (∃ j ≤ files.length, ∀ now, ∃ report st'',
        outcome (calm.addFiles store force (files.take j)) { st with token := .never, now } =
          (.ok report, st'') ∧
        st'.store.store.Alike st''.store.store ∧ st'.store.failures = st''.store.failures) ∧
      ∀ kind ≠ .vector, ∀ requests before, st.store.store = after requests (.fresh kind) →
        held st.store.store store = some before → st'.store.failures = st.store.failures →
        indexer.SeparatesPaths files → indexer.SeparatesChunks files →
        (∀ file ∈ files, ∀ cut, indexer.Cuts file cut → before.Spares file cut) →
        ∃ after, held st'.store.store = Function.update (held st.store.store) store (some after) ∧
          before.WholeVersions after indexer files := by
  constructor
  · obtain ⟨j, hj, middle, hlooked, hfirst⟩ :=
      hcalm.addFiles_cancelled Backend.lockstep.scripted hrun
    obtain ⟨hstore, hfailures⟩ := hlooked.eq_of_backend
    refine ⟨j, hj, fun now => ?_⟩
    obtain ⟨report, st'', hcalm, halike⟩ := hfirst { st with token := .never, now }
      ⟨⟨st.store.store.alike_refl, rfl, rfl, rfl⟩, rfl, rfl⟩
    refine ⟨report, st'', hcalm, ?_, ?_⟩
    · rw [hstore]
      exact halike.store
    · rw [hfailures]
      exact halike.failures
  · intro kind hkind requests before hstart hheld hfailures hpaths hchunks hspares
    obtain ⟨laws, hvalid, -, -⟩ := Backend.exists_lawful hkind
    have hst : Valid st.store.store := hstart ▸ valid_after hvalid requests
    exact Indexer.addFiles_wholeVersions hst hheld hrun hfailures hpaths hchunks hspares

/-- An indexer that is told to stop while it embeds, after a number of calls of the embedder. -/
def stopping (after : Nat) : Indexer :=
  { windowing with embedder := some (.scripted { behaviour := .cancel, after }) }

/-- The same indexer, which nothing tells to stop. -/
def unstopped (after : Nat) : Indexer :=
  { windowing with embedder := some (.scripted { behaviour := .constant, after }) }

theorem calmedBy_stopping (after : Nat) : (stopping after).CalmedBy (unstopped after) where
  chunker := ⟨TreeParser.calmedBy_wholeFile, rfl⟩
  embedder := .some (Embedder.calmedBy_scripted { behaviour := .cancel, after })
  options := rfl

/-- A store without documents. -/
def emptyStart : IndexState (ScriptedStore Backend) where
  store := { store := after [.createStore "s"] (.fresh .memory), script := allPass }

theorem held_emptyStart : held emptyStart.store.store "s" = some {} := by
  obtain ⟨laws, hvalid, -, hempty⟩ := @Backend.exists_lawful .memory (by decide)
  have hheld := held_after hvalid [.createStore "s"] (by simp [Request.Fits])
  rw [hempty] at hheld
  exact congrFun hheld "s"

/-- Two files, the second of which is cancelled. -/
def stoppedBatch : List SourceFile := [⟨"a.txt", [120]⟩, ⟨"b.txt", [121]⟩]

/-- What becomes of them. -/
def stoppedRun : Except IndexError IndexReport × IndexState (ScriptedStore Backend) :=
  outcome ((stopping 1).addFiles "s" false stoppedBatch) emptyStart

theorem cancelled_on_file_boundary_sample :
    (∃ j ≤ 2, ∀ now, ∃ report st'',
        outcome ((unstopped 1).addFiles "s" false (stoppedBatch.take j))
          { emptyStart with token := .never, now } = (.ok report, st'') ∧
        stoppedRun.2.store.store.Alike st''.store.store ∧
        stoppedRun.2.store.failures = st''.store.failures) ∧
      ∃ after, held stoppedRun.2.store.store =
          Function.update (held emptyStart.store.store) "s" (some after) ∧
        ({} : Shelf).WholeVersions after (stopping 1) stoppedBatch := by
  obtain ⟨hanswer, hfailures⟩ : stoppedRun.1 = .error .cancelled ∧
      stoppedRun.2.store.failures = emptyStart.store.failures := by decide +kernel
  have hids : (stopping 1).Distinguishes stoppedBatch := by
    refine Indexer.distinguishes_of_cutOf TreeParser.steady_wholeFile
      (fun file => [Chunk.window .unknown 0 (Text.lines (decodeSource file).1)]) ?_ ?_ ?_
    all_goals decide +kernel
  obtain ⟨hfirst, hwhole⟩ := cancelled_on_file_boundary (calmedBy_stopping 1)
    (Prod.ext hanswer rfl : outcome _ emptyStart = (.error .cancelled, stoppedRun.2))
  exact ⟨hfirst, hwhole .memory (by decide) [.createStore "s"] {} rfl held_emptyStart hfailures
    hids.separatesPaths hids.separatesChunks fun _ _ _ _ _ _ _ => nofun⟩

/-- Two files whose chunks share an identifier, and one that is cancelled. -/
def collidingBatch : List SourceFile := collidingFiles ++ [⟨"c.txt", [122]⟩]

/-- What becomes of them. -/
def collidingRun : Except IndexError IndexReport × IndexState (ScriptedStore Backend) :=
  outcome ((stopping 2).addFiles "s" false collidingBatch) emptyStart

/-- Where identifiers collide there is a path with neither what has stood there before the batch nor
a complete version: its document has been written, and its chunk has been replaced by the chunk of
the next file. -/
theorem cancelled_on_file_boundary_collision :
    collidingRun.1 = .error .cancelled ∧
      collidingRun.2.store.failures = emptyStart.store.failures ∧
      ∃ before after, held emptyStart.store.store "s" = some before ∧
        held collidingRun.2.store.store "s" = some after ∧
        ¬ ∀ path, Shelf.SameAt path after before ∨
          ∃ file ∈ collidingBatch, file.path = path ∧ after.Includes (stopping 2) file := by
  obtain ⟨hanswer, hfailures, hplace, hdocument, hthere⟩ :
      collidingRun.1 = .error .cancelled ∧
        collidingRun.2.store.failures = emptyStart.store.failures ∧
        (chunkAt collidingRun.2.store.store "s" "8157c60db88fb3a2").map (·.path) =
          some "97d7669e546a2969.txt" ∧
        (documentAt collidingRun.2.store.store "s" "0ab01845b4033b42.txt").isSome = true ∧
        (RecordStore.hasStore "s" collidingRun.2.store.store).1 = .ok true := by
    decide +kernel
  have hcut : (stopping 2).cutOf ⟨"0ab01845b4033b42.txt", [120]⟩ =
      .ok [Chunk.window .unknown 0 [['x']]] := by decide +kernel
  have hid : chunkId "0ab01845b4033b42.txt" 1 1 = "8157c60db88fb3a2" := by decide +kernel
  refine ⟨hanswer, hfailures, ?_⟩
  generalize collidingRun.2.store.store = b at hplace hdocument hthere
  have hheld : held b "s" = some ⟨documentAt b "s", chunkAt b "s"⟩ := by rw [held, hthere]
  refine ⟨{}, _, held_emptyStart, hheld, fun hwhole => ?_⟩
  obtain hsame | ⟨file, hfile, hpath, hincludes⟩ := hwhole "0ab01845b4033b42.txt"
  · have hnone : documentAt b "s" "0ab01845b4033b42.txt" = none := hsame.documents
    rw [hnone] at hdocument
    cases hdocument
  · obtain rfl : file = ⟨"0ab01845b4033b42.txt", [120]⟩ := by
      simp only [collidingBatch, collidingFiles, List.cons_append, List.nil_append,
        List.mem_cons, List.not_mem_nil, or_false] at hfile
      obtain rfl | rfl | rfl := hfile
      · rfl
      · exact absurd hpath (by decide)
      · exact absurd hpath (by decide)
    obtain ⟨cut, hcuts, hchunks⟩ := hincludes.chunks
    obtain rfl := (Indexer.cuts_iff_of_cutOf TreeParser.steady_wholeFile hcut).1 hcuts
    have hstored : ∀ record ∈ SourceFile.recordsOf ⟨"0ab01845b4033b42.txt", [120]⟩ _,
        record.chunkId = "8157c60db88fb3a2" → chunkAt b "s" "8157c60db88fb3a2" = some record :=
      fun record hrecord hchunk => hchunk ▸ hchunks record hrecord
    have hrecord := congrArg (Option.map (·.path)) (hstored _ (List.mem_singleton.2 rfl) hid)
    rw [hplace] at hrecord
    exact absurd hrecord (by decide)

end CodeIndex
