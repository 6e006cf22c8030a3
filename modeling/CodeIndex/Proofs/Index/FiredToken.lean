import CodeIndex.Proofs.Index.Lifecycle

/-!
# Calls whose token has fired

A call may be given a token that has fired already.  Bringing files in asks the token before it
touches the store, so such a call answers that it was cancelled and leaves everything as it was.
Rebuilding clears the store first and asks the token only then: the call answers that it was
cancelled just the same, and what the store held is gone.

## Main definitions

* `Indexer.firedError` is what both calls answer.

## Main results

* `Indexer.outcome_addFiles_fired` and `Indexer.outcome_rebuild_fired`: how the two calls end.
* `fired_call_spares_iff`: over every backend bringing files in spares the store, and rebuilding
  spares it only if it holds nothing.
-/

namespace CodeIndex

open Indexing
open LawfulStore (Valid)

/-- Every backend knows which stores it has. -/
theorem Backend.hasStore_eq (name : String) (b : Backend) :
    ∃ answer, RecordStore.hasStore name b = (.ok answer, b) := by
  cases b with
  | memory m => exact ⟨m.stores.contains name, rfl⟩
  | relational db => exact ⟨db.hasStore name, rfl⟩
  | vector s => exact ⟨s.records.hasStore name, rfl⟩

theorem Indexing.outcome_checkpoint_fired {σ : Type} {st : IndexState σ}
    (hfired : st.token = .fired) :
    outcome (checkpoint : Indexing σ Unit) st = (.error .cancelled, st) := by
  have hpoll : st.token.poll = (true, st.token) := by rw [hfired]; rfl
  simp only [checkpoint, outcome_bind, outcome_get, outcome_set, hpoll, if_true, outcome_throw]

namespace Indexer

/-- The answer to a call whose token has fired. -/
def firedError (name : String) : Option Shelf → IndexError
  | none => .notFound name
  | some _ => .cancelled

variable {σ : Type} [RecordStore σ] {st : IndexState σ} {name : String}

/-- The first file of a batch is not looked at. -/
theorem outcome_indexBatch_fired (indexer : Indexer) (force : Bool) (report : IndexReport)
    {files : List SourceFile} (hfiles : files ≠ []) (hfired : st.token = .fired) :
    outcome (indexer.indexBatch name force report files) st = (.error .cancelled, st) := by
  cases files with
  | nil => exact absurd rfl hfiles
  | cons file rest => rw [indexBatch, outcome_bind, outcome_checkpoint_fired hfired]

theorem outcome_checkExists (hhas : ∃ answer, RecordStore.hasStore name st.store =
    (.ok answer, st.store)) :
    outcome (checkExists name) st =
      (match held st.store name with
        | none => .error (.notFound name)
        | some _ => .ok (), st) := by
  obtain ⟨answer, hanswer⟩ := hhas
  have hcall : outcome (call (RecordStore.hasStore name)) st = (.ok answer, st) := by
    rw [outcome_call, hanswer]
    rfl
  rw [checkExists, outcome_bind, hcall, held, hanswer]
  cases answer <;> rfl

/-- Bringing files in stops before anything has changed. -/
theorem outcome_addFiles_fired (indexer : Indexer) (force : Bool) {files : List SourceFile}
    (hfiles : files ≠ []) (hfired : st.token = .fired)
    (hhas : ∃ answer, RecordStore.hasStore name st.store = (.ok answer, st.store)) :
    outcome (indexer.addFiles name force files) st =
      (.error (firedError name (held st.store name)), st) := by
  rw [addFiles, outcome_bind, outcome_checkExists hhas]
  cases held st.store name with
  | none => rfl
  | some shelf => exact outcome_indexBatch_fired indexer force _ hfiles hfired

/-- Rebuilding stops when the store has been cleared. -/
theorem outcome_rebuild_fired [LawfulStore σ] (indexer : Indexer) {files : List SourceFile}
    (hfiles : files ≠ []) (hfired : st.token = .fired) (hst : Valid st.store) :
    ∃ st', outcome (indexer.rebuild name files) st =
        (.error (firedError name (held st.store name)), st') ∧
      held st'.store =
        Function.update (held st.store) name ((held st.store name).map fun _ => {}) := by
  rw [rebuild, outcome_bind, outcome_checkExists (LawfulStore.hasStore name st.store hst)]
  cases hheld : held st.store name with
  | none =>
    refine ⟨st, rfl, ?_⟩
    rw [Option.map_none, ← hheld, Function.update_eq_self]
  | some shelf =>
    have hclear := LawfulStore.clear (σ := σ) name
    obtain ⟨_, hanswer⟩ := hclear.succeeds st.store shelf hst hheld trivial
    have hcleared : outcome (call (RecordStore.clear name)) st =
        (.ok (), { st with store := (RecordStore.clear name st.store).2 }) := by
      rw [outcome_call, hanswer]
      rfl
    refine ⟨{ st with store := (RecordStore.clear name st.store).2 }, ?_, ?_⟩
    · simp only [outcome_bind, hcleared]
      exact outcome_indexBatch_fired indexer true _ hfiles hfired
    · exact hclear.taken st.store shelf () hst hheld hanswer

end Indexer

/-- Clearing a store changes nothing if the store is missing or holds nothing. -/
theorem update_cleared_eq_self_iff {held : String → Option Shelf} {name : String} :
    Function.update held name ((held name).map fun _ => {}) = held ↔
      ∀ shelf, held name = some shelf → shelf = {} := by
  rw [Function.update_eq_self_iff]
  cases held name with
  | none => simp
  | some shelf => simp [eq_comm]

/-- **A call whose token has fired.**  Bringing files in answers that it was cancelled, or that
there is no such store, and leaves every state of every backend as it was.  On a backend that keeps
its records itself rebuilding answers the same, but it clears the store before it asks the token:
nothing is lost only if there was nothing. -/
theorem fired_call_spares_iff (indexer : Indexer) {st : IndexState Backend}
    (hfired : st.token = .fired) (store : String) (force : Bool) {files : List SourceFile}
    (hfiles : files ≠ []) :
    outcome (indexer.addFiles store force files) st =
        (.error (Indexer.firedError store (held st.store store)), st) ∧
      ∀ kind ≠ .vector, ∀ requests, st.store = after requests (.fresh kind) →
        ∃ st', outcome (indexer.rebuild store files) st =
            (.error (Indexer.firedError store (held st.store store)), st') ∧
          held st'.store = Function.update (held st.store) store
            ((held st.store store).map fun _ => {}) ∧
          (held st'.store = held st.store ↔
            ∀ shelf, held st.store store = some shelf → shelf = {}) := by
  refine ⟨indexer.outcome_addFiles_fired force hfiles hfired (Backend.hasStore_eq store st.store),
    fun kind hkind requests hstore => ?_⟩
  obtain ⟨laws, hvalid, -, -⟩ := Backend.exists_lawful hkind
  have hst : Valid st.store := hstore ▸ valid_after hvalid requests
  obtain ⟨st', hrun, hheld⟩ : ∃ st', outcome (indexer.rebuild store files) st = (_, st') ∧ _ :=
    indexer.outcome_rebuild_fired hfiles hfired hst
  refine ⟨st', hrun, hheld, ?_⟩
  rw [hheld]
  exact update_cleared_eq_self_iff

/-- A store with one document, and a token that has fired. -/
def firedStart : IndexState Backend where
  store := after (stockingRequests "s") (.fresh .memory)
  token := .fired

theorem fired_call_spares_iff_sample :
    outcome (windowing.addFiles "s" false [⟨"a.txt", [120]⟩]) firedStart =
        (.error .cancelled, firedStart) ∧
      ∃ st', outcome (windowing.rebuild "s" [⟨"a.txt", [120]⟩]) firedStart =
          (.error .cancelled, st') ∧
        held st'.store "s" = some {} ∧ held st'.store ≠ held firedStart.store := by
  obtain ⟨hthere, hdocument⟩ :
      (RecordStore.hasStore "s" firedStart.store).1 = .ok true ∧
        (documentAt firedStart.store "s" "a.txt").isSome = true := by decide +kernel
  have hheld : held firedStart.store "s" =
      some ⟨documentAt firedStart.store "s", chunkAt firedStart.store "s"⟩ := by rw [held, hthere]
  obtain ⟨hadded, hrebuilt⟩ := fired_call_spares_iff windowing
    (rfl : firedStart.token = .fired) "s" false (List.cons_ne_nil ⟨"a.txt", [120]⟩ [])
  obtain ⟨st', hrun, hafter, hspares⟩ := hrebuilt .memory (by decide) _ rfl
  rw [hheld] at hadded hrun
  refine ⟨hadded, st', hrun, ?_, fun hsame => ?_⟩
  · rw [hafter, Function.update_self, hheld, Option.map_some]
  · have hempty := hspares.1 hsame _ hheld
    have hnone : documentAt firedStart.store "s" "a.txt" = none :=
      congrFun (congrArg Shelf.documents hempty) "a.txt"
    rw [hnone] at hdocument
    cases hdocument

end CodeIndex
