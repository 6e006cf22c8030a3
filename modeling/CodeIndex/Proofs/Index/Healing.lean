import CodeIndex.Proofs.Index.Lifecycle

/-!
# Indexing after failures

A failing store can leave a path in two bad conditions.  If a write fails and the chunks cannot be
removed again, there are chunks without a document, which the next version of the file does not
replace.  If a document is written although the write is reported as failed, it stays behind without
its chunks, and the file is skipped from then on.  Nothing else goes wrong: `healing_iff` gives the
exact condition under which a file that is indexed or skipped later is as it should be, and without
the two kinds of failure that condition always holds.

## Main results

* `FileRun.sameAt` and `BatchRun.exists_fileRun`: in a batch of distinct paths each file is alone at
  its path.
* `healing_iff`: what a later batch makes of a file, after any failures.
* `Shelf.not_heals_staged` and `Shelf.not_heals_hollow`: in the two bad conditions the exact
  condition fails.
-/

namespace CodeIndex

open Indexing ScriptedStore
open LawfulStore (Valid)

variable {indexer : Indexer} {script : FaultScript} {force : Bool} {files : List SourceFile}
  {file : SourceFile} {before after : Shelf} {failed : Nat}

/-! ## Files at other paths -/

/-- Whatever happens to a file is not seen at other paths. -/
theorem FileRun.sameAt {answer : Except IndexError FileOutcome}
    (h : FileRun indexer script force file before answer after failed)
    (hspares : ∀ cut, indexer.Cuts file cut → before.Spares file cut) {path : String}
    (hpath : file.path ≠ path) : Shelf.SameAt path after before := by
  cases h with
  | skipped _ _ _ | refused _ | untouched => exact .refl path before
  | indexed hcut | unreported hcut _ => exact (hspares _ hcut).sameAt_written hpath _
  | removed => exact Shelf.sameAt_dropWhere (by simpa using hpath.symm)
  | undone hcut => exact (hspares _ hcut).sameAt_wiped hpath
  | orphaned hcut _ => exact (hspares _ hcut).sameAt_staged hpath
  | hollow hcut _ =>
    exact (Shelf.sameAt_addDocument hpath).trans ((hspares _ hcut).sameAt_wiped hpath)

theorem BatchRun.sameAt {batch : List SourceFile} {outcomes : Except IndexError (List FileOutcome)}
    (h : BatchRun indexer script force batch before outcomes after failed)
    (hids : indexer.Distinguishes files) (hbatch : batch ⊆ files)
    (hbefore : before.Sourced indexer files) {path : String}
    (hpath : path ∉ batch.map (·.path)) : Shelf.SameAt path after before := by
  induction h with
  | done | stopped => exact .refl path _
  | aborted hfile _ =>
    rw [List.map_cons, List.mem_cons, not_or] at hpath
    exact hfile.sameAt
      (fun _ => hbefore.spares hids.separatesPaths (List.cons_subset.1 hbatch).1) (Ne.symm hpath.1)
  | noted hfile _ _ ih =>
    obtain ⟨hmem, hrest⟩ := List.cons_subset.1 hbatch
    rw [List.map_cons, List.mem_cons, not_or] at hpath
    exact (ih hrest (hfile.sourced hmem hbefore) hpath.2).trans
      (hfile.sameAt (fun _ => hbefore.spares hids.separatesPaths hmem) (Ne.symm hpath.1))

/-- The outcome of a file in a batch of distinct paths is that of a run alone at its path. -/
theorem BatchRun.exists_fileRun {batch : List SourceFile}
    {outcomes : Except IndexError (List FileOutcome)}
    (h : BatchRun indexer script force batch before outcomes after failed)
    (hids : indexer.Distinguishes files) (hbatch : batch ⊆ files)
    (hpaths : (batch.map (·.path)).Nodup) (hbefore : before.Sourced indexer files)
    (hfile : file ∈ batch) {found : List FileOutcome} (hfound : outcomes = .ok found)
    {outcome : FileOutcome} (houtcome : outcome ∈ found) (hpath : outcome.path = file.path) :
    ∃ answer earlier later failed', FileRun indexer script force file earlier answer later failed' ∧
      outcome = .ofAnswer file answer ∧ failed' ≤ failed ∧ earlier.Sourced indexer files ∧
      Shelf.SameAt file.path earlier before ∧ Shelf.SameAt file.path after later := by
  induction h generalizing found with
  | done => cases hfile
  | stopped => cases hfound
  | aborted _ _ => cases hfound
  | @noted first rest before middle after answer outcomes failed failed' hfirst _ hrest ih =>
    obtain ⟨hmem, hsubset⟩ := List.cons_subset.1 hbatch
    rw [List.map_cons, List.nodup_cons] at hpaths
    cases outcomes with
    | error e => cases hfound
    | ok later =>
      obtain rfl := Except.ok.inj hfound
      have hmiddle := hfirst.sourced hmem hbefore
      obtain rfl | hlater := List.mem_cons.1 houtcome
      · -- The outcome is the first one, and so is the file.
        rw [hfirst.path_ofAnswer] at hpath
        obtain rfl | hlater := List.mem_cons.1 hfile
        · exact ⟨answer, before, middle, failed, hfirst, rfl, Nat.le_add_right _ _, hbefore,
            .refl _ _, hrest.sameAt hids hsubset hmiddle hpaths.1⟩
        · exact absurd (hpath ▸ List.mem_map_of_mem hlater) hpaths.1
      · have hin : file.path ∈ rest.map (·.path) := by
          rw [← hrest.map_path rfl, ← hpath]
          exact List.mem_map_of_mem hlater
        have hne : first.path ≠ file.path := fun heq => hpaths.1 (heq ▸ hin)
        have hlast : file ∈ rest :=
          (List.mem_cons.1 hfile).resolve_left fun heq => hne (heq ▸ rfl)
        obtain ⟨answer', earlier, end', failed'', hrun, hof, hle, hsourced, hearlier, hend⟩ :=
          ih hsubset hpaths.2 hmiddle hlast rfl hlater
        have hkept := hfirst.sameAt (fun _ => hbefore.spares hids.separatesPaths hmem) hne
        exact ⟨answer', earlier, end', failed'', hrun, hof, hle.trans (Nat.le_add_left _ _),
          hsourced, hearlier.trans hkept, hend⟩

/-! ## What a later batch makes of a file -/

/-- The condition under which a shelf holds a file when the file has been indexed or skipped.  A
file that is indexed replaces what stands at its path if there is a document, and otherwise only the
chunks that have the identifiers of its own. -/
def Shelf.Heals (before : Shelf) (indexer : Indexer) (file : SourceFile) : FileStatus → Prop
  | .indexed => (before.documents file.path).isSome ∨ ∃ cut, indexer.Cuts file cut ∧
      ∀ id record, before.chunks id = some record → record.path = file.path → id ∈ file.idsOf cut
  | .skipped => before.Holds indexer file
  | .failed => False

theorem Shelf.SameAt.holds_iff {first second : Shelf} (h : Shelf.SameAt file.path first second) :
    first.Holds indexer file ↔ second.Holds indexer file :=
  ⟨fun hholds => hholds.of_sameAt h.symm, fun hholds => hholds.of_sameAt h⟩

theorem Shelf.SameAt.heals_iff {first second : Shelf} (h : Shelf.SameAt file.path first second)
    (status : FileStatus) : first.Heals indexer file status ↔ second.Heals indexer file status := by
  cases status with
  | indexed =>
    have hchunks : ∀ cut, (∀ id record, first.chunks id = some record → record.path = file.path →
        id ∈ file.idsOf cut) ↔ ∀ id record, second.chunks id = some record →
        record.path = file.path → id ∈ file.idsOf cut := by
      intro cut
      refine forall₂_congr fun id record =>
        ⟨fun hid hstored hpath => ?_, fun hid hstored hpath => ?_⟩
      · exact hid ((h.chunks id record hpath).2 hstored) hpath
      · exact hid ((h.chunks id record hpath).1 hstored) hpath
    simp only [Shelf.Heals, h.documents, hchunks]
  | skipped => exact h.holds_iff
  | failed => exact Iff.rfl

/-- A stored document of the version of a file is the document of the file. -/
theorem Shelf.Sourced.eq_document {shelf : Shelf} (h : shelf.Sourced indexer files)
    (hids : indexer.Distinguishes files) (hfile : file ∈ files) {stored : DocumentRecord}
    (hstored : shelf.documents file.path = some stored)
    (hversion : stored.documentId = file.versionId) : ∃ now, stored = file.document now := by
  obtain ⟨other, hother, hpath, now, rfl⟩ := h.documents file.path stored hstored
  obtain rfl := hids.eq_of_version hother hfile hpath hversion
  exact ⟨now, rfl⟩

/-- Where everything is as it should be, a document tells what the shelf holds. -/
theorem Reflects.holds_of_document {contents : Contents} {shelf : Shelf}
    (h : Reflects indexer files contents shelf) (hids : indexer.Distinguishes files)
    (hfile : file ∈ files) {now : Int}
    (hdocument : shelf.documents file.path = some (file.document now)) :
    shelf.Holds indexer file := by
  cases hcontent : contents file.path with
  | none =>
    rw [(h.vacant file.path hcontent).document] at hdocument
    cases hdocument
  | some content =>
    have hholds := h.holds file.path content hcontent
    obtain ⟨now', hnow'⟩ := hholds.document
    have hrecord : SourceFile.document ⟨file.path, content⟩ now' = file.document now :=
      Option.some.inj (hnow'.symm.trans hdocument)
    have hversion : SourceFile.versionId ⟨file.path, content⟩ = file.versionId :=
      congrArg DocumentRecord.documentId hrecord
    have hsame := hids.eq_of_version (h.known file.path content hcontent) hfile rfl hversion
    rwa [hsame] at hholds

/-- A run without failing calls after which the file is reported as indexed or skipped. -/
theorem FileRun.heals {answer : Except IndexError FileOutcome}
    (h : FileRun indexer script force file before answer after 0)
    (hparser : indexer.chunker.parser.Steady) (hids : indexer.Distinguishes files)
    (hfile : file ∈ files) (hbefore : before.Sourced indexer files)
    (hstatus : (FileOutcome.ofAnswer file answer).status ≠ .failed) :
    (∃ now, after.documents file.path = some (file.document now)) ∧
      (after.Holds indexer file ↔
        before.Heals indexer file (FileOutcome.ofAnswer file answer).status) := by
  cases h with
  | refused _ => exact absurd rfl hstatus
  | @skipped stored _ _ hstored hversion =>
    obtain ⟨now, rfl⟩ := hbefore.eq_document hids hfile hstored hversion
    exact ⟨⟨now, hstored⟩, Iff.rfl⟩
  | @indexed cut now hcut =>
    have honly : ∀ cut', indexer.Cuts file cut' → cut' = cut :=
      fun cut' hcut' => hcut'.unique hparser hcut
    refine ⟨⟨now, if_pos rfl⟩, ?_⟩
    refine (Shelf.holds_written_iff hids.separatesChunks hfile hcut honly now).trans ?_
    refine or_congr_right ⟨fun hchunks => ⟨cut, hcut, hchunks⟩, ?_⟩
    rintro ⟨cut', hcut', hchunks⟩
    obtain rfl := honly cut' hcut'
    exact hchunks

/-! ## The two bad conditions -/

/-- Chunks that were written without their document stay if the next version of the file does not
have chunks in their places. -/
theorem Shelf.not_heals_staged {other : SourceFile} {cut cut' : List Chunk}
    (hparser : indexer.chunker.parser.Steady) (hids : indexer.Distinguishes files)
    (hother : other ∈ files) (hcut : indexer.Cuts other cut) (hcut' : indexer.Cuts file cut')
    (hpath : other.path = file.path) {id : String} (hid : id ∈ other.idsOf cut)
    (hleft : id ∉ file.idsOf cut') : ¬ (before.staged other cut).Heals indexer file .indexed := by
  have hnone : (before.staged other cut).documents file.path = none := by
    rw [Shelf.staged, Shelf.documents_addChunks, ← hpath]
    exact if_pos (by simp)
  rintro (hdocument | ⟨found, hfound, hchunks⟩)
  · rw [hnone] at hdocument
    cases hdocument
  · obtain rfl := hfound.unique hparser hcut'
    obtain ⟨record, hrecord, rfl⟩ := List.mem_map.1 hid
    refine hleft (hchunks record.chunkId record ?_ ?_)
    · refine Shelf.chunks_addChunks_of_mem _ hid fun chunk hchunk hsame => ?_
      rw [SourceFile.plain_of_mem_recordsOf hchunk]
      exact hids.chunks other hother cut hcut chunk hchunk record hrecord hsame
    · rw [SourceFile.path_of_mem_recordsOf hrecord, hpath]

/-- A document that was written late stays without its chunks, and the file is skipped. -/
theorem Shelf.not_heals_hollow {cut : List Chunk} (hparser : indexer.chunker.parser.Steady)
    (hcut : indexer.Cuts file cut) (hnonempty : cut ≠ []) (now : Int) :
    ¬ ((before.wiped file cut).addDocument (file.document now)).Heals indexer file .skipped := by
  intro hholds
  obtain ⟨found, hfound, hchunks⟩ := hholds.chunks
  obtain rfl := hfound.unique hparser hcut
  obtain ⟨chunk, hchunk⟩ := List.exists_mem_of_ne_nil found hnonempty
  have hrecord := List.mem_map_of_mem
    (f := Indexer.recordOf file.path file.versionId (decodeSource file).2) hchunk
  obtain ⟨hstored, -⟩ := (hchunks _ _).2 ⟨hrecord, rfl⟩
  exact (Shelf.chunks_dropChunks_some.1 hstored).1 (SourceFile.mem_idsOf hrecord)

/-! ## Histories with failures -/

section Lawful

variable {σ : Type} [RecordStore σ] [LawfulStore σ] {st st' : IndexState (ScriptedStore σ)}

/-- A later batch without failing calls, on a store in any condition that failures can leave. -/
theorem addFiles_heals {store : String} {batch : List SourceFile} {report : IndexReport}
    {outcome : FileOutcome} {token : Cancellation} {now : Int}
    (hparser : indexer.chunker.parser.Steady) (hids : indexer.Distinguishes files)
    (hst : Valid st.store.store)
    (hsourced : ∀ name shelf, held st.store.store name = some shelf → shelf.Sourced indexer files)
    (hbatch : batch ⊆ files) (hpaths : (batch.map (·.path)).Nodup)
    (hrun : Indexing.outcome (indexer.addFiles store force batch) { st with token, now } =
      (.ok report, st'))
    (hfailures : st'.store.failures = st.store.failures) (hfile : file ∈ batch)
    (houtcome : outcome ∈ report.files) (hpath : outcome.path = file.path)
    (hstatus : outcome.status ≠ .failed) :
    ∃ before after, held st.store.store store = some before ∧
      held st'.store.store store = some after ∧ after.Sourced indexer files ∧
      (¬ st.store.script.Early .dropChunks → ¬ st.store.script.Late .putDocument →
        Settled indexer files before → Settled indexer files after) ∧
      (∃ now, after.documents file.path = some (file.document now)) ∧
      (after.Holds indexer file ↔ before.Heals indexer file outcome.status) := by
  have hreply : Indexing.outcome ((Operation.addFiles store force batch).run indexer)
      { st with token, now } = (.ok (.indexed report), st') := by
    rw [Operation.run, outcome_map, hrun]
    rfl
  have hvalid : Valid ({ st with token, now } : IndexState (ScriptedStore σ)).store.store := hst
  obtain ⟨after?, failed, hoperation, hmoves⟩ := Indexer.operationRun_addFiles hvalid hreply
  have hnone : failed = 0 := by
    have htotal : st.store.failures + failed = st.store.failures :=
      hmoves.failures.symm.trans hfailures
    omega
  subst hnone
  generalize hheld : held st.store.store store = before? at hoperation
  generalize hanswer : Except.ok (Reply.indexed report) = answer at hoperation
  cases hoperation with
  | missing _ => cases hanswer
  | @added _ _ _ before after outcomes _ hbatchRun =>
    cases outcomes with
    | error e => cases hanswer
    | ok found =>
      obtain rfl : report = found.foldl .record { store } := by
        injection hanswer with hreport
        injection hreport
      rw [IndexReport.files_foldl_record, List.nil_append] at houtcome
      have hbefore := hsourced store before hheld
      obtain ⟨answer, earlier, later, failed', hfileRun, rfl, hle, hearlier, hsame, hsame'⟩ :=
        hbatchRun.exists_fileRun hids hbatch hpaths hbefore hfile rfl houtcome hpath
      obtain rfl := Nat.le_zero.1 hle
      obtain ⟨⟨now, hnow⟩, hiff⟩ :=
        hfileRun.heals hparser hids (hbatch hfile) hearlier hstatus
      refine ⟨before, after, rfl, hmoves.held_self, hbatchRun.sourced hbatch hbefore,
        hbatchRun.settled hids hbatch, ⟨now, hsame'.documents.trans hnow⟩, ?_⟩
      rw [hsame'.holds_iff, hiff, hsame.heals_iff]

end Lawful

/-- After any history, in which any calls have failed in any way, a batch of distinct paths in which
no call fails leaves the right document at the path of each file that it reports as indexed or
skipped.  It leaves the right chunks there exactly if the condition `Shelf.Heals` is met, and the
condition is met if no removal of chunks has failed early and no document has been written late. -/
theorem healing_iff (indexer : Indexer) (hparser : indexer.chunker.parser.Steady)
    {kind : BackendKind} (hkind : kind ≠ .vector) (script : FaultScript) (calls : List IndexCall)
    {st st' : IndexState (ScriptedStore Backend)}
    (hst : st = (history indexer calls (freshState kind script)).2) {store : String} {force : Bool}
    {batch : List SourceFile} {token : Cancellation} {now : Int} {report : IndexReport}
    (hrun : Indexing.outcome (indexer.addFiles store force batch) { st with token, now } =
      (.ok report, st'))
    (hfailures : st'.store.failures = st.store.failures)
    (hids : indexer.Distinguishes (calls.flatMap (·.operation.files) ++ batch))
    (hpaths : (batch.map (·.path)).Nodup) {file : SourceFile} (hfile : file ∈ batch)
    {outcome : FileOutcome} (houtcome : outcome ∈ report.files) (hpath : outcome.path = file.path)
    (hstatus : outcome.status ≠ .failed) :
    ∃ before after, held st.store.store store = some before ∧
      held st'.store.store store = some after ∧
      (∃ now, after.documents file.path = some (file.document now)) ∧
      (after.Holds indexer file ↔ before.Heals indexer file outcome.status) ∧
      (¬ script.Early .dropChunks → ¬ script.Late .putDocument → after.Holds indexer file) := by
  obtain ⟨laws, hvalid, -, hempty⟩ := Backend.exists_lawful hkind
  have hnothing : ∀ (P : Shelf → Prop) name shelf,
      held (freshState kind script).store.store name = some shelf → P shelf := by
    intro P name shelf hshelf
    have hnone : held (freshState kind script).store.store name = none := congrFun hempty name
    rw [hnone] at hshelf
    cases hshelf
  have hfiles : ∀ call ∈ calls,
      call.operation.files ⊆ calls.flatMap (·.operation.files) ++ batch :=
    fun call hcall file hfile => List.mem_append_left _ (List.mem_flatMap.2 ⟨call, hcall, hfile⟩)
  obtain ⟨hst₁, hscript, hsourced⟩ := history_preserves indexer calls
    (freshState kind script) (P := fun shelf => shelf.Sourced indexer _) hvalid
    Shelf.sourced_empty (fun shelf drop h => h.dropWhere drop)
    (fun call hcall _ _ _ _ _ hbatch => hbatch.sourced (hfiles call hcall)) (hnothing _)
  subst hst
  obtain ⟨before, after, hbefore, hafter, hsourced', hsettled, hdocument, hiff⟩ :=
    addFiles_heals hparser hids hst₁ hsourced (List.subset_append_right _ _) hpaths hrun hfailures
      hfile houtcome hpath hstatus
  refine ⟨before, after, hbefore, hafter, hdocument, hiff, fun hearly hlate => ?_⟩
  obtain ⟨-, -, hsettled₁⟩ := history_preserves indexer calls
    (freshState kind script) (P := Settled indexer _) hvalid ⟨_, reflects_empty⟩
    (fun shelf drop ⟨_, h⟩ => ⟨_, h.dropWhere drop⟩)
    (fun call hcall _ _ _ _ _ hbatch =>
      hbatch.settled hids (hfiles call hcall) hearly hlate) (hnothing _)
  obtain ⟨contents, hcontents⟩ := hsettled (hscript ▸ hearly) (hscript ▸ hlate)
    (hsettled₁ store before hbefore)
  obtain ⟨now, hnow⟩ := hdocument
  exact hcontents.holds_of_document hids (List.mem_append_right _ hfile) hnow

/-- A script by which the first document is written, although the call is reported as failed. -/
def lateDocument : FaultScript := fun earlierCalls method =>
  if earlierCalls = 4 ∧ method = .putDocument then .failsAfter (.other "timeout") else .passes

/-- A file of one line. -/
def healingSample : SourceFile := ⟨"a.txt", [120]⟩

/-- The store after a first attempt to index the file. -/
def healingStart : IndexState (ScriptedStore Backend) :=
  (history windowing [{ operation := .createStore "s" },
    { operation := .addFiles "s" false [healingSample] }] (freshState .memory lateDocument)).2

/-- The second attempt. -/
def healingRun : Except IndexError IndexReport × IndexState (ScriptedStore Backend) :=
  Indexing.outcome (windowing.addFiles "s" false [healingSample])
    { healingStart with token := .never, now := 0 }

theorem healing_iff_sample : healingStart.store.failures = 1 ∧
    ∃ report outcome, healingRun.1 = .ok report ∧ outcome ∈ report.files ∧
      outcome.status = .skipped ∧ ∃ before after,
        held healingStart.store.store "s" = some before ∧
        held healingRun.2.store.store "s" = some after ∧
        (∃ now, after.documents healingSample.path = some (healingSample.document now)) ∧
        (after.Holds windowing healingSample ↔
          before.Heals windowing healingSample outcome.status) ∧
        (¬ lateDocument.Early .dropChunks → ¬ lateDocument.Late .putDocument →
          after.Holds windowing healingSample) ∧
        ¬ after.Holds windowing healingSample := by
  refine ⟨by decide +kernel, ?_⟩
  have hstatuses : healingRun.1.toOption.map (·.files.map fun outcome =>
      (outcome.path, outcome.status)) = some [("a.txt", .skipped)] := by decide +kernel
  cases hrun : healingRun.1 with
  | error e =>
    rw [hrun] at hstatuses
    cases hstatuses
  | ok report =>
    rw [hrun] at hstatuses
    obtain ⟨outcome, hfiles, hpair⟩ := List.map_eq_singleton_iff.1 (Option.some.inj hstatuses)
    obtain ⟨hpath, hstatus⟩ := Prod.mk.inj hpair
    have houtcome : outcome ∈ report.files := by
      rw [hfiles]
      exact List.mem_singleton_self outcome
    refine ⟨report, outcome, rfl, houtcome, hstatus, ?_⟩
    have hids : windowing.Distinguishes [healingSample] := by
      refine Indexer.distinguishes_of_cutOf TreeParser.steady_wholeFile
        (fun file => [Chunk.window .unknown 0 (Text.lines (decodeSource file).1)]) ?_ ?_ ?_
      all_goals decide +kernel
    obtain ⟨before, after, hbefore, hafter, hdocument, hiff, hsufficient⟩ :=
      healing_iff windowing TreeParser.steady_wholeFile (by decide) lateDocument _ rfl
        (Prod.ext hrun rfl) (by decide +kernel) (hids.mono (by simp [Operation.files])) (by decide)
        (List.mem_singleton_self _) houtcome hpath (by simp [hstatus])
    refine ⟨before, after, hbefore, hafter, hdocument, hiff, hsufficient, ?_⟩
    -- The chunk of the file is missing before and after.
    rw [hiff, hstatus]
    intro hholds
    obtain ⟨cut, hcut, hchunks⟩ := hholds.chunks
    have hfound : windowing.cutOf healingSample = .ok [Chunk.window .unknown 0 [['x']]] := by
      decide +kernel
    obtain rfl := (Indexer.cuts_iff_of_cutOf TreeParser.steady_wholeFile hfound).1 hcut
    obtain ⟨hstored, -⟩ := (hchunks _ _).2 ⟨List.mem_singleton.2 rfl, rfl⟩
    rw [eq_of_held_eq_some hbefore] at hstored
    have hmissing : (chunkAt healingStart.store.store "s"
        (chunkId healingSample.path 1 1)).isSome = false := by decide +kernel
    rw [← Bool.not_eq_true] at hmissing
    exact hmissing (Option.isSome_iff_exists.2 ⟨_, hstored⟩)

end CodeIndex
