import CodeIndex.Proofs.Index.FiredToken
import CodeIndex.Proofs.Store.Removals

/-!
# Reports of deleted files

A deletion of files makes up to two calls, one for the given paths and one for a start of paths, and
reports what the two answer together.  The report lists the documents that are gone.  Its counters
are those by which the store has shrunk if each of these documents is listed once; so they are in
memory, and on a database unless a path that has a document is given twice.

## Main definitions

* `RemovedDocuments.report` is the report of what was removed.
* `DeleteReport.Exact` says that a report accounts for the change of the counters.

## Main results

* `Indexer.outcome_removeFiles`: how a deletion ends on a store that exists.
* `deletion_report_exact_iff`: what is reported, and when it is exact.
-/

namespace CodeIndex

open Indexing
open LawfulStore (Valid startsWith)

/-- The report of what was removed. -/
def RemovedDocuments.report (removed : RemovedDocuments) : DeleteReport :=
  { documentsRemoved := removed.paths.length, chunksRemoved := removed.chunkIds.length,
    paths := removed.paths }

/-- No document is reported twice, and the counters go down by what is reported. -/
structure DeleteReport.Exact (report : DeleteReport) (earlier later : StoreStats) : Prop where
  paths : report.paths.Nodup
  documents : earlier.documents = later.documents + report.documentsRemoved
  chunks : earlier.chunks = later.chunks + report.chunksRemoved

/-- A list is without repetitions if its length does not count any. -/
theorem length_dedup_eq_length_iff {texts : List String} :
    texts.dedup.length = texts.length ↔ texts.Nodup := by
  constructor
  · intro hlength
    rw [← (List.dedup_sublist texts).eq_of_length hlength]
    exact List.nodup_dedup texts
  · intro hnodup
    rw [hnodup.dedup]

/-! ## Reports about shelves -/

namespace Shelf.Removes

variable {shelf : Shelf} {drop : String → Bool} {removed : RemovedDocuments}

/-- What is listed stood on the shelf and does not stand there any more. -/
theorem mem_report_iff (h : shelf.Removes drop removed) (path : String) :
    path ∈ removed.report.paths ↔
      (shelf.documents path).isSome ∧ (shelf.dropWhere drop).documents path = none := by
  refine (h.paths path).trans ?_
  cases hdrop : drop path with
  | false => cases hdocument : shelf.documents path <;> simp [dropWhere, hdrop, hdocument]
  | true => simp [dropWhere, hdrop]

variable {σ : Type} [RecordStore σ] [LawfulStore σ] {s s' : σ} {name : String}
  {earlier later : StoreStats}

/-- If the number of documents is right then everything is: a document that is listed once brings
its chunks once. -/
theorem exact_report_iff (h : shelf.Removes drop removed) (hs : Valid s)
    (hheld : held s name = some shelf) (hearlier : shelf.Counts name earlier) (hs' : Valid s')
    (hheld' : held s' name = some (shelf.dropWhere drop))
    (hlater : (shelf.dropWhere drop).Counts name later) :
    (removed.report.Exact earlier later ↔ removed.paths.Nodup) ∧
      (earlier.documents = later.documents + removed.report.documentsRemoved ↔
        removed.paths.Nodup) := by
  obtain ⟨hdocuments, hchunks⟩ := h.counts hs hheld hearlier hs' hheld' hlater
  have hcounter : earlier.documents = later.documents + removed.report.documentsRemoved ↔
      removed.paths.Nodup := by
    rw [hdocuments, Nat.add_left_cancel_iff]
    exact length_dedup_eq_length_iff
  refine ⟨⟨fun hexact => hexact.paths, fun hnodup => ?_⟩, hcounter⟩
  have hids : removed.chunkIds.dedup.length = removed.chunkIds.length :=
    length_dedup_eq_length_iff.2 (h.nodup hnodup)
  rw [hids] at hchunks
  exact ⟨hnodup, hcounter.2 hnodup, hchunks⟩

end Shelf.Removes

/-! ## Runs of a deletion -/

namespace Indexer

variable {σ : Type} [RecordStore σ] [LawfulStore σ] {st : IndexState σ} {name : String}

theorem outcome_hasStore (hst : Valid st.store) :
    outcome (call (RecordStore.hasStore name)) st = (.ok (held st.store name).isSome, st) := by
  obtain ⟨answer, hanswer⟩ := LawfulStore.hasStore name st.store hst
  have htrue : (.ok answer : Except StoreError Bool) = .ok (held st.store name).isSome := by
    rw [← hasStore_eq hst name, hanswer]
  rw [outcome_call, hanswer, htrue]
  rfl

/-- A call that can be made changes its store. -/
theorem outcome_change {α : Type} {request : StoreCall σ α} {change : Shelf → Shelf}
    {shelf : Shelf} (hchanges : Changes (Valid : σ → Prop) name request change)
    (hst : Valid st.store) (hheld : held st.store name = some shelf) :
    ∃ a st', (request st.store).1 = .ok a ∧ outcome (call request) st = (.ok a, st') ∧
      Valid st'.store ∧ held st'.store =
        Function.update (held st.store) name (some (change shelf)) := by
  obtain ⟨a, hanswer⟩ := hchanges.succeeds st.store shelf hst hheld trivial
  refine ⟨a, { st with store := (request st.store).2 }, hanswer, ?_, ?_, ?_⟩
  · rw [outcome_call, hanswer]
    rfl
  · exact hchanges.valid st.store hst
  · exact hchanges.taken st.store shelf a hst hheld hanswer

theorem outcome_removeFiles_missing (hst : Valid st.store) (hheld : held st.store name = none)
    (paths : List String) (start : Option String) :
    outcome (removeFiles name paths start) st = (.ok {}, st) := by
  rw [removeFiles, outcome_bind, outcome_hasStore hst, hheld]
  rfl

/-- The rest of a deletion, after the documents at the given paths have been removed. -/
def reportBelow (name : String) (start : Option String) (named : RemovedDocuments) :
    Indexing σ DeleteReport :=
  match start.filter (!·.isEmpty) with
  | none => pure named.report
  | some text => do
    let below ← call (RecordStore.dropDocumentsBelow name text)
    pure (named.merge below).report

theorem outcome_removeFiles_eq (hst : Valid st.store) {before : Shelf}
    (hheld : held st.store name = some before) (paths : List String) (start : Option String) :
    outcome (removeFiles name paths start) st =
      outcome (call (RecordStore.dropDocuments name paths) >>= reportBelow name start) st := by
  rw [removeFiles, outcome_bind, outcome_hasStore hst, hheld]
  simp only [Option.isSome_some, Bool.not_true, Bool.false_eq_true, if_false]
  refine congrArg (fun next => outcome (call _ >>= next) st) (funext fun named => ?_)
  unfold reportBelow
  cases start.filter (!·.isEmpty) with
  | none => rfl
  | some text =>
    dsimp only
    rw [bind_map_left]
    rfl

/-- A deletion removes the documents at the given paths and then those below the start; what the two
calls answer goes into the report. -/
theorem outcome_removeFiles {Once : Shelf → List String → Prop} (hlaws : RemovalLaws σ Once)
    (hst : Valid st.store) {before : Shelf} (hheld : held st.store name = some before)
    (paths : List String) (start : Option String) :
    ∃ removed st', outcome (removeFiles name paths start) st = (.ok removed.report, st') ∧
      Valid st'.store ∧
      held st'.store = Function.update (held st.store) name
        (some (before.dropWhere (Operation.removes (startsWith σ) paths start))) ∧
      before.Removes (Operation.removes (startsWith σ) paths start) removed ∧
      (removed.paths.Nodup ↔ Once before paths) := by
  obtain ⟨named, st₁, hnamed, hcall, hst₁, hheld₁⟩ :=
    outcome_change (LawfulStore.dropDocuments name paths) hst hheld
  obtain ⟨hremoves, honce⟩ := hlaws.dropDocuments paths hst hheld hnamed
  rw [outcome_removeFiles_eq hst hheld, outcome_bind, hcall]
  dsimp only [reportBelow]
  cases hstart : start.filter (!·.isEmpty) with
  | none =>
    rw [Operation.removes_of_filter_eq_none hstart]
    exact ⟨named, st₁, rfl, hst₁, hheld₁, hremoves, honce⟩
  | some text =>
    have hself : held st₁.store name = some (before.dropWhere paths.contains) := by
      rw [hheld₁, Function.update_self]
      rfl
    obtain ⟨below, st₂, hbelow, hcall₂, hst₂, hheld₂⟩ :=
      outcome_change (LawfulStore.dropDocumentsBelow name text) hst₁ hself
    obtain ⟨hremoves₂, hnodup₂⟩ := hlaws.dropDocumentsBelow text hst₁ hself hbelow
    -- The second call finds nothing that the first one has removed.
    have hmerge : named.merge below = named.append below :=
      hremoves.merge_eq_append hremoves₂ hnodup₂
    rw [Operation.removes_of_filter_eq_some hstart]
    refine ⟨named.append below, st₂, ?_, hst₂, ?_, hremoves.append hremoves₂, ?_⟩
    · rw [← hmerge]
      dsimp only
      rw [outcome_bind, hcall₂]
      rfl
    · rw [hheld₂, hheld₁, Function.update_idem, Shelf.dropWhere_or]
    · rw [hremoves.paths_nodup_append hremoves₂, and_iff_left hnodup₂]
      exact honce

end Indexer

theorem Operation.removes_iff {kind : BackendKind} {paths : List String} {start : Option String}
    {path : String} : Operation.removes kind.startsWith paths start path ↔
      path ∈ paths ∨ ∃ text, start = some text ∧ text ≠ "" ∧ text.toList <+: path.toList ∧
        (kind = .memory ∨ NulFree text) := by
  rw [Operation.removes, Bool.or_eq_true, List.contains_iff_mem]
  refine or_congr_right ?_
  cases start with
  | none => simp
  | some text =>
    by_cases hempty : text = ""
    · simp [hempty]
    · simp [hempty, BackendKind.startsWith_iff]

/-- **What a deletion of files reports.**  On a backend that keeps its records itself a deletion of
files is answered with a report.  If there is no such store the report is empty.  Otherwise it lists
the documents that were there and are not there any more, which are those at the given paths and
those whose paths begin with the given start; on a database no path begins with a NUL in the start.
The report is exact in memory, and on a database if no path that has a document is given twice;
otherwise its counter of documents is wrong. -/
theorem deletion_report_exact_iff {kind : BackendKind} (hkind : kind ≠ .vector)
    (requests : List Request) (store : String) (paths : List String) (start : Option String)
    {st : IndexState Backend} (hstore : st.store = after requests (.fresh kind)) :
    ∃ report st', outcome (Indexer.removeFiles store paths start) st = (.ok report, st') ∧
      (held st.store store = none → report = {} ∧ st' = st) ∧
      ∀ before, held st.store store = some before → ∃ left earlier later,
        held st'.store = Function.update (held st.store) store (some left) ∧
        (RecordStore.stats store st.store).1 = .ok earlier ∧
        (RecordStore.stats store st'.store).1 = .ok later ∧
        (∀ path, path ∈ report.paths ↔
          (before.documents path).isSome ∧ left.documents path = none) ∧
        (∀ path, path ∈ report.paths ↔ (before.documents path).isSome ∧ (path ∈ paths ∨
          ∃ text, start = some text ∧ text ≠ "" ∧ text.toList <+: path.toList ∧
            (kind = .memory ∨ NulFree text))) ∧
        (report.Exact earlier later ↔ kind.Once before paths) ∧
        (earlier.documents = later.documents + report.documentsRemoved ↔
          kind.Once before paths) := by
  obtain ⟨laws, hvalid, hstarts, hlaws⟩ := Backend.exists_removalLaws hkind
  have hst : Valid st.store := hstore ▸ valid_after hvalid requests
  cases hheld : held st.store store with
  | none =>
    exact ⟨{}, st, Indexer.outcome_removeFiles_missing hst hheld paths start,
      fun _ => ⟨rfl, rfl⟩, nofun⟩
  | some before =>
    obtain ⟨removed, st', hrun, hst', hheld', hremoves, honce⟩ :=
      Indexer.outcome_removeFiles hlaws hst hheld paths start
    rw [hstarts] at hheld' hremoves
    refine ⟨removed.report, st', hrun, nofun, ?_⟩
    rintro _ ⟨⟩
    have hself : held st'.store store =
        some (before.dropWhere (Operation.removes kind.startsWith paths start)) := by
      rw [hheld', Function.update_self]
    obtain ⟨earlier, hearlier, hcounts⟩ : ∃ a, _ ∧ before.Counts store a := by
      simpa only [hheld] using (LawfulStore.stats store st.store hst).2
    obtain ⟨later, hlater, hcounts'⟩ : ∃ a, _ ∧ Shelf.Counts _ store a := by
      simpa only [hself] using (LawfulStore.stats store st'.store hst').2
    obtain ⟨hexact, hcounter⟩ := hremoves.exact_report_iff hst hheld hcounts hst' hself hcounts'
    refine ⟨_, earlier, later, hheld', hearlier, hlater, hremoves.mem_report_iff, fun path => ?_,
      hexact.trans honce, hcounter.trans honce⟩
    rw [← Operation.removes_iff]
    exact (hremoves.paths path).trans and_comm

/-- A store with one document. -/
def stocked (kind : BackendKind) : IndexState Backend where
  store := after (stockingRequests "s") (.fresh kind)

theorem deletion_report_exact_iff_sample :
    (∃ report st' earlier later,
      outcome (Indexer.removeFiles "s" ["a.txt", "a.txt"] none) (stocked .memory) =
          (.ok report, st') ∧
        (RecordStore.stats "s" (stocked .memory).store).1 = .ok earlier ∧
        (RecordStore.stats "s" st'.store).1 = .ok later ∧ report.Exact earlier later) ∧
      ∃ report st' earlier later,
        outcome (Indexer.removeFiles "s" ["a.txt", "a.txt"] none) (stocked .relational) =
            (.ok report, st') ∧
          (RecordStore.stats "s" (stocked .relational).store).1 = .ok earlier ∧
          (RecordStore.stats "s" st'.store).1 = .ok later ∧
          earlier.documents ≠ later.documents + report.documentsRemoved := by
  have hheld : ∀ kind, (RecordStore.hasStore "s" (stocked kind).store).1 = .ok true →
      held (stocked kind).store "s" =
        some ⟨documentAt (stocked kind).store "s", chunkAt (stocked kind).store "s"⟩ :=
    fun kind hthere => by rw [held, hthere]
  constructor
  · obtain ⟨report, st', hrun, -, hreport⟩ := deletion_report_exact_iff
      (by decide : BackendKind.memory ≠ .vector) (stockingRequests "s") "s" ["a.txt", "a.txt"] none
      (rfl : (stocked .memory).store = _)
    obtain ⟨_, earlier, later, -, hearlier, hlater, -, -, hexact, -⟩ :=
      hreport _ (hheld .memory (by decide +kernel))
    exact ⟨report, st', earlier, later, hrun, hearlier, hlater, hexact.2 trivial⟩
  · obtain ⟨report, st', hrun, -, hreport⟩ := deletion_report_exact_iff
      (by decide : BackendKind.relational ≠ .vector) (stockingRequests "s") "s"
      ["a.txt", "a.txt"] none (rfl : (stocked .relational).store = _)
    obtain ⟨_, earlier, later, -, hearlier, hlater, -, -, -, hcounter⟩ :=
      hreport _ (hheld .relational (by decide +kernel))
    refine ⟨report, st', earlier, later, hrun, hearlier, hlater, fun hright => ?_⟩
    have hdocument : (documentAt (stocked .relational).store "s" "a.txt").isSome = true := by
      decide +kernel
    have honce : (["a.txt", "a.txt"].filter fun path =>
        (documentAt (stocked .relational).store "s" path).isSome).Nodup := hcounter.1 hright
    simp [hdocument] at honce

end CodeIndex
