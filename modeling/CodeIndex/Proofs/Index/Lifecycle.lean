import CodeIndex.Proofs.Index.Contents
import CodeIndex.Proofs.Store.Backends

/-!
# The lifecycle of the index

As long as no store call fails and nothing is cancelled, the stores of the index are maps from paths
to contents.  Each operation acts on the map of its store: a file that is indexed sets its path, a
file that is skipped finds its content there already, a file that fails changes nothing, and a
deletion forgets paths.

## Main definitions

* `Contents.Notes` is what an outcome says about the map, and `Contents.NotesAll` what the outcomes
  of a batch say one after the other.
* `Acts` is what an operation and its answer say about the map of a store.
* `ActsAll` is what a history and its answers say about all stores.

## Main results

* `lifecycle_reflects`: after every history the stores hold what the history says.
-/

namespace CodeIndex

open Indexing ScriptedStore
open LawfulStore (Valid)

/-! ## The specification -/

namespace Contents

/-- What becomes of the map when an outcome is entered for a file. -/
inductive Notes (contents : Contents) (file : SourceFile) (outcome : FileOutcome) : Contents → Prop
  | indexed : outcome.status = .indexed →
      Notes contents file outcome (Function.update contents file.path (some file.content))
  | skipped : outcome.status = .skipped → contents file.path = some file.content →
      Notes contents file outcome contents
  | failed : outcome.status = .failed → Notes contents file outcome contents

/-- What becomes of the map when the outcomes of a batch are entered, one for each file. -/
inductive NotesAll : Contents → List SourceFile → List FileOutcome → Contents → Prop
  | done {contents : Contents} : NotesAll contents [] [] contents
  | next {contents middle after : Contents} {file : SourceFile} {outcome : FileOutcome}
      {files : List SourceFile} {outcomes : List FileOutcome} :
      contents.Notes file outcome middle → NotesAll middle files outcomes after →
      NotesAll contents (file :: files) (outcome :: outcomes) after

end Contents

/-- What becomes of the map of a store in an operation, or of there being no such store. -/
inductive Acts (startsWith : String → String → Bool) :
    Operation → Except IndexError Reply → Option Contents → Option Contents → Prop
  | created {store : String} {before : Option Contents} :
      Acts startsWith (.createStore store) (.ok .done) before (some (before.getD fun _ => none))
  | dropped {store : String} {before : Option Contents} :
      Acts startsWith (.dropStore store) (.ok .done) before none
  | added {store : String} {force : Bool} {files : List SourceFile} {report : IndexReport}
      {before after : Contents} : before.NotesAll files report.files after →
      Acts startsWith (.addFiles store force files) (.ok (.indexed report)) (some before)
        (some after)
  | rebuilt {store : String} {files : List SourceFile} {report : IndexReport}
      {before after : Contents} : Contents.NotesAll (fun _ => none) files report.files after →
      Acts startsWith (.rebuild store files) (.ok (.indexed report)) (some before) (some after)
  | removed {store : String} {paths : List String} {start : Option String}
      {report : DeleteReport} {before : Contents} :
      Acts startsWith (.removeFiles store paths start) (.ok (.removed report)) (some before)
        (some (before.without (Operation.removes startsWith paths start)))
  | absent {store : String} {paths : List String} {start : Option String} :
      Acts startsWith (.removeFiles store paths start) (.ok (.removed {})) none none
  | synced {store : String} {isPresent : String → Bool} {report : SyncReport} {before : Contents} :
      Acts startsWith (.syncMissing store isPresent) (.ok (.synced report)) (some before)
        (some (before.without (!isPresent ·)))
  | syncedDeleted {store : String} {current : List String} {report : SyncReport}
      {before : Contents} :
      Acts startsWith (.syncDeleted store current) (.ok (.synced report)) (some before)
        (some (before.without (!current.contains ·)))
  /-- Without the store there is nothing to act on. -/
  | missing {operation : Operation} : operation.NeedsStore →
      Acts startsWith operation (.error (.notFound operation.store)) none none

/-- What becomes of the maps of all stores in a history. -/
inductive ActsAll (startsWith : String → String → Bool) :
    List IndexCall → List (Except IndexError Reply) → (String → Option Contents) →
    (String → Option Contents) → Prop
  | done {catalog : String → Option Contents} : ActsAll startsWith [] [] catalog catalog
  | next {call : IndexCall} {calls : List IndexCall} {answer : Except IndexError Reply}
      {answers : List (Except IndexError Reply)} {catalog after : String → Option Contents}
      {changed : Option Contents} :
      Acts startsWith call.operation answer (catalog call.operation.store) changed →
      ActsAll startsWith calls answers (Function.update catalog call.operation.store changed)
        after →
      ActsAll startsWith (call :: calls) (answer :: answers) catalog after

/-! ## One operation -/

variable {indexer : Indexer} {script : FaultScript} {force : Bool} {files : List SourceFile}
  {file : SourceFile} {contents : Contents} {before after : Shelf}

/-- A file that no store call fails for is entered in the map. -/
theorem FileRun.notes {answer : Except IndexError FileOutcome}
    (h : FileRun indexer script force file before answer after 0)
    (hids : indexer.Distinguishes files) (hfile : file ∈ files)
    (hbefore : Reflects indexer files contents before) :
    ∃ contents', contents.Notes file (.ofAnswer file answer) contents' ∧
      Reflects indexer files contents' after := by
  cases h with
  | refused _ => exact ⟨contents, .failed rfl, hbefore⟩
  | indexed hcut => exact ⟨_, .indexed rfl, hbefore.written hids hfile hcut _⟩
  | @skipped stored chunks _ hstored hversion =>
    refine ⟨contents, .skipped rfl ?_, hbefore⟩
    cases hcontent : contents file.path with
    | none =>
      rw [(hbefore.vacant file.path hcontent).document] at hstored
      cases hstored
    | some content =>
      obtain ⟨now, hnow⟩ := (hbefore.holds file.path content hcontent).document
      obtain rfl : SourceFile.document ⟨file.path, content⟩ now = stored :=
        Option.some.inj (hnow.symm.trans hstored)
      exact congrArg some (hids.versions _ (hbefore.known file.path content hcontent) file hfile
        rfl hversion)

theorem endsBatch_iff {e : IndexError} :
    e.endsBatch = true ↔ e = .cancelled ∨ ∃ store, e = .notFound store := by
  cases e <;> simp [IndexError.endsBatch]

/-- Without failing store calls a batch ends early only if it is cancelled. -/
theorem BatchRun.cancelled {batch : List SourceFile}
    {outcomes : Except IndexError (List FileOutcome)} {failed : Nat}
    (h : BatchRun indexer script force batch before outcomes after failed)
    (hfailed : failed = 0) {e : IndexError} (he : outcomes = .error e) : e = .cancelled := by
  induction h with
  | done => cases he
  | stopped => exact (Except.error.inj he).symm
  | aborted hfile hends =>
    obtain rfl := Except.error.inj he
    subst hfailed
    cases hfile with
    | refused hfound =>
      obtain hcancelled | ⟨store, hstore⟩ := endsBatch_iff.1 hends
      · exact hcancelled
      · exact absurd hstore (hfound store)
  | @noted _ _ _ _ _ answer outcomes failed failed' _ _ _ ih =>
    obtain ⟨-, hrest⟩ := Nat.add_eq_zero_iff.1 hfailed
    cases outcomes with
    | ok _ => cases he
    | error e' =>
      obtain rfl := Except.error.inj he
      exact ih hrest rfl

theorem BatchRun.notesAll {batch : List SourceFile}
    {outcomes : Except IndexError (List FileOutcome)} {failed : Nat}
    (h : BatchRun indexer script force batch before outcomes after failed)
    (hfailed : failed = 0) (hids : indexer.Distinguishes files) (hbatch : batch ⊆ files)
    (hbefore : Reflects indexer files contents before) {found : List FileOutcome}
    (hfound : outcomes = .ok found) :
    ∃ contents', contents.NotesAll batch found contents' ∧
      Reflects indexer files contents' after := by
  induction h generalizing contents found with
  | done =>
    obtain rfl := Except.ok.inj hfound
    exact ⟨contents, .done, hbefore⟩
  | stopped => cases hfound
  | aborted _ _ => cases hfound
  | @noted _ _ _ _ _ answer outcomes failed failed' hfile _ _ ih =>
    obtain ⟨rfl, rfl⟩ := Nat.add_eq_zero_iff.1 hfailed
    obtain ⟨hmem, hrest⟩ := List.cons_subset.1 hbatch
    cases outcomes with
    | error e => cases hfound
    | ok later =>
      obtain rfl := Except.ok.inj hfound
      obtain ⟨middle, hnotes, hmiddle⟩ := hfile.notes hids hmem hbefore
      obtain ⟨contents', hlater, hafter⟩ := ih rfl hrest hmiddle rfl
      exact ⟨contents', .next hnotes hlater, hafter⟩

/-- The report of a batch that no store call fails for, and that is not cancelled. -/
theorem BatchRun.acts {batch : List SourceFile} {outcomes : Except IndexError (List FileOutcome)}
    {contents : Contents} {store : String}
    (h : BatchRun indexer script force batch before outcomes after 0)
    (hids : indexer.Distinguishes files) (hbatch : batch ⊆ files)
    (hbefore : Reflects indexer files contents before)
    (hcancelled : (outcomes.map fun outcomes =>
      Reply.indexed (outcomes.foldl .record { store })) ≠ .error .cancelled) :
    ∃ report contents', (outcomes.map fun outcomes =>
        Reply.indexed (outcomes.foldl .record { store })) = .ok (.indexed report) ∧
      contents.NotesAll batch report.files contents' ∧ Reflects indexer files contents' after := by
  cases outcomes with
  | error e =>
    obtain rfl := h.cancelled rfl rfl
    exact absurd rfl hcancelled
  | ok found =>
    obtain ⟨contents', hnotes, hafter⟩ := h.notesAll rfl hids hbatch hbefore rfl
    refine ⟨_, contents', rfl, ?_, hafter⟩
    rwa [IndexReport.files_foldl_record, List.nil_append]

/-- An operation that no store call fails for, and that is not cancelled, acts on the map. -/
theorem OperationRun.acts {startsWith : String → String → Bool} {operation : Operation}
    {earlier later : Option Shelf} {answer : Except IndexError Reply}
    (h : OperationRun indexer script startsWith operation earlier answer later 0)
    (hcancelled : answer ≠ .error .cancelled) (hids : indexer.Distinguishes files)
    (hfiles : operation.files ⊆ files) {map : Option Contents}
    (hmap : Option.Rel (Reflects indexer files) map earlier) :
    ∃ map', Acts startsWith operation answer map map' ∧
      Option.Rel (Reflects indexer files) map' later := by
  cases h with
  | created =>
    refine ⟨_, .created, ?_⟩
    cases hmap with
    | none => exact .some reflects_empty
    | some h => exact .some h
  | dropped => exact ⟨none, .dropped, .none⟩
  | missing hneeds =>
    cases hmap
    exact ⟨none, .missing hneeds, .none⟩
  | added hrun =>
    cases hmap with
    | some hreflects =>
      obtain ⟨report, contents', hanswer, hnotes, hafter⟩ :=
        hrun.acts hids hfiles hreflects hcancelled
      rw [hanswer]
      exact ⟨_, .added hnotes, .some hafter⟩
  | rebuilt hrun =>
    cases hmap with
    | some hreflects =>
      obtain ⟨report, contents', hanswer, hnotes, hafter⟩ :=
        hrun.acts hids hfiles reflects_empty hcancelled
      rw [hanswer]
      exact ⟨_, .rebuilt hnotes, .some hafter⟩
  | absent =>
    cases hmap
    exact ⟨none, .absent, .none⟩
  | removed =>
    cases hmap with
    | some hreflects => exact ⟨_, .removed, .some (hreflects.dropWhere _)⟩
  | synced =>
    cases hmap with
    | some hreflects => exact ⟨_, .synced, .some (hreflects.dropWhere _)⟩
  | syncedDeleted hrun =>
    cases hrun with
    | missing _ =>
      cases hmap
      exact ⟨none, .missing trivial, .none⟩
    | synced =>
      cases hmap with
      | some hreflects => exact ⟨_, .syncedDeleted, .some (hreflects.dropWhere _)⟩

/-! ## Histories -/

section History

variable {σ : Type} [RecordStore σ] [LawfulStore σ]

/-- Failing calls are never forgotten. -/
theorem failures_le_history (indexer : Indexer) (calls : List IndexCall)
    {st : IndexState (ScriptedStore σ)} (hst : Valid st.store.store) :
    st.store.failures ≤ (history indexer calls st).2.store.failures := by
  induction calls generalizing st with
  | nil => exact Nat.le_refl _
  | cons call rest ih =>
    obtain ⟨after, failed, -, hmoves⟩ := call.operationRun_make indexer hst
    have hfirst : st.store.failures ≤ st.store.failures + failed := Nat.le_add_right _ _
    rw [← hmoves.failures] at hfirst
    exact hfirst.trans (ih hmoves.valid)

theorem history_actsAll {calls : List IndexCall} {st : IndexState (ScriptedStore σ)}
    (hst : Valid st.store.store) (hids : indexer.Distinguishes files)
    (hfiles : ∀ call ∈ calls, call.operation.files ⊆ files)
    (hfailures : (history indexer calls st).2.store.failures = st.store.failures)
    (hcancelled : .error .cancelled ∉ (history indexer calls st).1)
    {catalog : String → Option Contents}
    (hcatalog : ∀ name,
      Option.Rel (Reflects indexer files) (catalog name) (held st.store.store name)) :
    ∃ catalog', ActsAll (LawfulStore.startsWith σ) calls (history indexer calls st).1 catalog
        catalog' ∧
      ∀ name, Option.Rel (Reflects indexer files) (catalog' name)
        (held (history indexer calls st).2.store.store name) := by
  induction calls generalizing st catalog with
  | nil => exact ⟨catalog, .done, hcatalog⟩
  | cons call rest ih =>
    obtain ⟨hfirst, hrest⟩ := List.forall_mem_cons.1 hfiles
    obtain ⟨hanswer, hanswers⟩ := not_or.1 (List.mem_cons.not.1 hcancelled)
    obtain ⟨after, failed, hrun, hmoves⟩ := call.operationRun_make indexer hst
    -- The failing calls of the operation are among those of the history.
    have hbound := failures_le_history indexer rest hmoves.valid
    have hnone : failed = 0 := by
      have htotal := hbound.trans_eq hfailures
      rw [hmoves.failures] at htotal
      exact Nat.le_zero.1 (Nat.le_of_add_le_add_left htotal)
    subst hnone
    obtain ⟨changed, hacts, hchanged⟩ :=
      hrun.acts (Ne.symm hanswer) hids hfirst (hcatalog call.operation.store)
    have hnext : ∀ name, Option.Rel (Reflects indexer files)
        (Function.update catalog call.operation.store changed name)
        (Function.update (held st.store.store) call.operation.store after name) := by
      intro name
      by_cases hname : name = call.operation.store
      · subst hname
        rwa [Function.update_self, Function.update_self]
      · rw [Function.update_of_ne hname, Function.update_of_ne hname]
        exact hcatalog name
    rw [← hmoves.held] at hnext
    obtain ⟨catalog', hlater, hreflects⟩ :=
      ih hmoves.valid hrest (hfailures.trans hmoves.failures.symm) hanswers hnext
    exact ⟨catalog', .next hacts hlater, hreflects⟩

end History

/-- A backend in which nothing is stored yet, whose calls fail by a script. -/
def freshState (kind : BackendKind) (script : FaultScript) :
    IndexState (ScriptedStore Backend) where
  store := { store := .fresh kind, script }

/-- After every history in which no store call fails and nothing is cancelled, the stores hold what
the answers of the history say: for each path of the map the document and the chunks of its content,
and nothing else. -/
theorem lifecycle_reflects (indexer : Indexer) {kind : BackendKind} (hkind : kind ≠ .vector)
    (script : FaultScript) (calls : List IndexCall)
    (hids : indexer.Distinguishes (calls.flatMap (·.operation.files)))
    (hfailures : (history indexer calls (freshState kind script)).2.store.failures = 0)
    (hcancelled : .error .cancelled ∉ (history indexer calls (freshState kind script)).1) :
    ∃ catalog, ActsAll kind.startsWith calls (history indexer calls (freshState kind script)).1
        (fun _ => none) catalog ∧
      ∀ name, Option.Rel (Reflects indexer (calls.flatMap (·.operation.files))) (catalog name)
        (held (history indexer calls (freshState kind script)).2.store.store name) := by
  obtain ⟨laws, hvalid, hstarts, hempty⟩ := Backend.exists_lawful hkind
  rw [← hstarts]
  refine history_actsAll hvalid hids (fun call hcall => ?_) hfailures hcancelled fun name => ?_
  · exact fun file hfile => List.mem_flatMap.2 ⟨call, hcall, hfile⟩
  · have hnone : held (freshState kind script).store.store name = none := congrFun hempty name
    rw [hnone]
    exact .none

/-- An indexer that cuts every file into windows. -/
def windowing : Indexer where
  chunker := ⟨.wholeFile, .empty⟩

/-- A script by which no call fails. -/
def allPass : FaultScript := fun _ _ => .passes

/-- A batch that brings one of its files in twice, and a deletion. -/
def lifecycleSample : List IndexCall :=
  [{ operation := .createStore "s" },
    { operation := .addFiles "s" true [⟨"a.txt", [120]⟩, ⟨"b.txt", [121]⟩, ⟨"a.txt", [120]⟩] },
    { operation := .removeFiles "s" [] (some "b") }]

theorem lifecycle_reflects_sample :
    ∃ catalog, ActsAll BackendKind.memory.startsWith lifecycleSample
        (history windowing lifecycleSample (freshState .memory allPass)).1 (fun _ => none) catalog ∧
      ∀ name, Option.Rel (Reflects windowing (lifecycleSample.flatMap (·.operation.files)))
        (catalog name)
        (held (history windowing lifecycleSample (freshState .memory allPass)).2.store.store
          name) := by
  refine lifecycle_reflects windowing (by decide) allPass lifecycleSample ?_ (by decide +kernel)
    (by decide +kernel)
  have hids : windowing.Distinguishes [⟨"a.txt", [120]⟩, ⟨"b.txt", [121]⟩] := by
    refine Indexer.distinguishes_of_cutOf TreeParser.steady_wholeFile
      (fun file => [Chunk.window .unknown 0 (Text.lines (decodeSource file).1)]) ?_ ?_ ?_
    all_goals decide +kernel
  exact hids.mono (by simp [lifecycleSample, Operation.files])

/-- Two files with one chunk each, and one identifier for both chunks. -/
def collidingFiles : List SourceFile :=
  [⟨"0ab01845b4033b42.txt", [120]⟩, ⟨"97d7669e546a2969.txt", [121]⟩]

/-- A history that brings them into one store. -/
def collidingCalls : List IndexCall :=
  [{ operation := .createStore "s" }, { operation := .addFiles "s" false collidingFiles }]

/-- What an answer says about each file of a batch. -/
def Reply.statuses : Except IndexError Reply → List FileStatus
  | .ok (.indexed report) => report.files.map (·.status)
  | _ => []

/-- If both files are reported as indexed, the store should hold both. -/
theorem ActsAll.colliding {startsWith : String → String → Bool}
    {answers : List (Except IndexError Reply)} {catalog : String → Option Contents}
    (h : ActsAll startsWith collidingCalls answers (fun _ => none) catalog)
    (hstatus : answers.map Reply.statuses = [[], [.indexed, .indexed]]) :
    ∃ contents, catalog "s" = some contents ∧ contents "0ab01845b4033b42.txt" = some [120] := by
  cases h with
  | next hcreate hrest =>
    cases hcreate with
    | missing hneeds => exact absurd hneeds id
    | created => ?_
    cases hrest with
    | next hadd hdone =>
      cases hdone
      simp only [Operation.store, Function.update_self] at hadd
      cases hadd with
      | @added _ _ _ report _ after hnotes =>
        refine ⟨after, Function.update_self .., ?_⟩
        simp only [List.map_cons, List.map_nil, Reply.statuses, List.cons.injEq, and_true,
          true_and] at hstatus
        generalize report.files = outcomes at hnotes hstatus
        cases hnotes with
        | @next _ middle _ _ first _ _ hfirst hrest =>
          cases hrest with
          | @next _ _ _ _ second _ _ hsecond hdone =>
            cases hdone
            simp only [List.map_cons, List.map_nil, List.cons.injEq, and_true] at hstatus
            cases hsecond with
            | skipped h _ | failed h => simp [hstatus.2] at h
            | indexed _ =>
              rw [Function.update_of_ne (by decide)]
              cases hfirst with
              | skipped h _ | failed h => simp [hstatus.1] at h
              | indexed _ => exact Function.update_self ..

/-- Where identifiers collide the stores do not hold what the answers say: both files are reported
as indexed, and the chunk of the second one has taken the place of the first one's. -/
theorem lifecycle_reflects_collision :
    (history windowing collidingCalls (freshState .memory allPass)).2.store.failures = 0 ∧
      .error .cancelled ∉ (history windowing collidingCalls (freshState .memory allPass)).1 ∧
      ¬ ∃ catalog, ActsAll BackendKind.memory.startsWith collidingCalls
          (history windowing collidingCalls (freshState .memory allPass)).1 (fun _ => none)
          catalog ∧
        ∀ name, Option.Rel (Reflects windowing (collidingCalls.flatMap (·.operation.files)))
          (catalog name)
          (held (history windowing collidingCalls (freshState .memory allPass)).2.store.store
            name) := by
  refine ⟨by decide +kernel, by decide +kernel, ?_⟩
  rintro ⟨catalog, hacts, hreflects⟩
  obtain ⟨contents, hcatalog, hfirst⟩ := hacts.colliding (by decide +kernel)
  have hstore := hreflects "s"
  rw [hcatalog] at hstore
  have hplace :
      (chunkAt (history windowing collidingCalls (freshState .memory allPass)).2.store.store "s"
        "8157c60db88fb3a2").map (·.path) = some "97d7669e546a2969.txt" := by decide +kernel
  have hcut : windowing.cutOf ⟨"0ab01845b4033b42.txt", [120]⟩ =
      .ok [Chunk.window .unknown 0 [['x']]] := by decide +kernel
  have hid : chunkId "0ab01845b4033b42.txt" 1 1 = "8157c60db88fb3a2" := by decide +kernel
  generalize (history windowing collidingCalls (freshState .memory allPass)).2.store.store = b
    at hstore hplace
  generalize hheld : held b "s" = shelf at hstore
  cases hstore with
  | some hreflects =>
    obtain rfl := eq_of_held_eq_some hheld
    obtain ⟨cut, hcuts, hchunks⟩ := (hreflects.holds _ _ hfirst).chunks
    obtain rfl := (Indexer.cuts_iff_of_cutOf TreeParser.steady_wholeFile hcut).1 hcuts
    obtain ⟨hstored, -⟩ := (hchunks "8157c60db88fb3a2" _).2 ⟨List.mem_singleton.2 rfl, hid⟩
    have hpath := congrArg (Option.map (·.path)) hstored
    rw [hplace] at hpath
    exact absurd hpath (by decide)

end CodeIndex
