import Std.Data.TreeMap.Lemmas
import CodeIndex.Proofs.Search.Fusion
import CodeIndex.Proofs.Store.KeptChunks
import CodeIndex.Search.Hybrid

/-!
# Hybrid search neither loses nor swaps anything

A search asks every retriever, replaces the answer of one that failed by an empty list, and fuses
the lists with the weights of their retrievers.  The chunks of the results are fetched in one call
and joined with them through a table out of which each entry is taken once.  Taking entries out is
harmless because fusion merges the hits of a chunk into one result, so that no identifier is looked
up twice.

## Main definitions

* `Searcher.Gathers` says which lists and weights are fused, retriever by retriever.

## Main results

* `Searcher.search_error_iff`: a search fails exactly if all retrievers do.
* `Searcher.takeChunks_eq` and `Searcher.getElem?_chunkTable`: the join is a lookup.
* `Searcher.search_records_exact`: results and chunks belong together.
-/

namespace CodeIndex

open Std

/-! ## Fused identifiers -/

/-- Fusion has one result for a chunk, also for a chunk that lists hold several times. -/
theorem nodup_chunkIds_fuse {α : Type} [FusionArithmetic α] (lists : List (List Hit))
    (weights : List α) (k : Nat) : ((fuse lists weights k).map (·.chunkId)).Nodup := by
  have hcollects := collects_accumulate (k := rankConstant k) weights lists
  exact ((List.mergeSort_perm _ _).map _).nodup_iff.2 hcollects.nodup

namespace Searcher

variable {searcher : Searcher} {store query : String} {limit : Nat}

/-! ## Asking the retrievers -/

/-- The lists and weights of a search: at the place of a retriever stand its hits, or no hits if it
failed, and the weight of its name, or an equal share if its name has none. -/
structure Gathers (searcher : Searcher) (store query : String) (limit : Nat)
    (lists : List (List Hit)) (weights : List Float) : Prop where
  lists_length : lists.length = searcher.retrievers.length
  weights_length : weights.length = searcher.retrievers.length
  answered : ∀ (i : Nat) (retriever : Retriever) (hits : List Hit),
    searcher.retrievers[i]? = some retriever →
    retriever.search store query (max searcher.topK limit) = .ok hits → lists[i]? = some hits
  failed : ∀ (i : Nat) (retriever : Retriever) (e : SearchError),
    searcher.retrievers[i]? = some retriever →
    retriever.search store query (max searcher.topK limit) = .error e → lists[i]? = some []
  named : ∀ (i : Nat) (retriever : Retriever) (weight : Float),
    searcher.retrievers[i]? = some retriever →
    searcher.weights.lookup retriever.name = some weight → weights[i]? = some weight
  unnamed : ∀ (i : Nat) (retriever : Retriever), searcher.retrievers[i]? = some retriever →
    searcher.weights.lookup retriever.name = none →
      weights[i]? = some (1.0 / Float.ofNat searcher.retrievers.length)

theorem gathers (searcher : Searcher) (store query : String) (limit : Nat) :
    searcher.Gathers store query limit
      ((searcher.outcomes store query limit).map fun outcome => hitsOf outcome.2)
      searcher.weightList where
  lists_length := by simp [outcomes]
  weights_length := by simp [weightList]
  answered i retriever hits hi hanswer := by simp [outcomes, hi, hanswer, hitsOf]
  failed i retriever e hi hanswer := by simp [outcomes, hi, hanswer, hitsOf]
  named i retriever weight hi hweight := by simp [weightList, hi, weightOf, hweight]
  unnamed i retriever hi hweight := by
    have hcount : max searcher.retrievers.length 1 = searcher.retrievers.length := by
      obtain ⟨hlt, -⟩ := List.getElem?_eq_some_iff.1 hi
      omega
    simp [weightList, hi, weightOf, hweight, hcount]

/-- There are as many errors as outcomes if every outcome is an error. -/
theorem length_failures_eq {outcomes : List (String × Except SearchError (List Hit))} :
    (failures outcomes).length = outcomes.length ↔
      ∀ outcome ∈ outcomes, ∃ e, outcome.2 = .error e := by
  unfold failures
  rw [List.filterMap_length_eq_length]
  refine forall₂_congr fun outcome _ => ?_
  obtain ⟨name, answer⟩ := outcome
  cases answer <;> simp

theorem search_error_iff :
    (∃ e, searcher.search store query limit = .error e) ↔
      ∀ retriever ∈ searcher.retrievers, ∃ e,
        retriever.search store query (max searcher.topK limit) = .error e := by
  have hall : (failures (searcher.outcomes store query limit)).length =
      (searcher.outcomes store query limit).length ↔
      ∀ retriever ∈ searcher.retrievers, ∃ e,
        retriever.search store query (max searcher.topK limit) = .error e := by
    rw [length_failures_eq]
    simp [outcomes]
  unfold search
  split
  · next hempty =>
    rw [List.isEmpty_iff] at hempty
    simp [hempty]
  · rw [← hall]
    dsimp only
    split
    · next hfailed => simp [hfailed]
    · next hfailed => simp [hfailed]

theorem search_eq_of_ok {results : List (Fused Float)}
    (h : searcher.search store query limit = .ok results) :
    results = (fuse ((searcher.outcomes store query limit).map fun outcome => hitsOf outcome.2)
      searcher.weightList searcher.k).take limit := by
  unfold search at h
  split at h
  · cases h
  · dsimp only at h
    split at h
    · cases h
    · exact (Except.ok.inj h).symm

/-! ## Joining the chunks -/

/-- Taking entries out of the table does not show in the results, which have different
identifiers. -/
theorem takeChunks_eq (table : TreeMap String ChunkRecord) {results : List (Fused Float)}
    (h : (results.map (·.chunkId)).Nodup) :
    takeChunks table results = results.map fun result => ⟨result, table[result.chunkId]?⟩ := by
  induction results generalizing table with
  | nil => rfl
  | cons result rest ih =>
    rw [List.map_cons, List.nodup_cons] at h
    obtain ⟨hnew, hrest⟩ := h
    rw [takeChunks, ih _ hrest, List.map_cons]
    refine congrArg _ (List.map_congr_left fun later hlater => ?_)
    have hne : result.chunkId ≠ later.chunkId :=
      fun hsame => hnew (hsame ▸ List.mem_map_of_mem hlater)
    rw [TreeMap.getElem?_erase, if_neg fun hsame => hne (LawfulEqCmp.eq_of_compare hsame)]

/-- The table of fetched chunks holds each under the identifier that it was fetched by. -/
theorem getElem?_chunkTable {kept : String → Option ChunkRecord}
    (hkept : ∀ id chunk, kept id = some chunk → chunk.chunkId = id) (ids : List String)
    (id : String) :
    (chunkTable (ids.filterMap kept))[id]? = if id ∈ ids then kept id else none := by
  suffices hfold : ∀ table : TreeMap String ChunkRecord,
      ((ids.filterMap kept).foldl (fun table chunk => table.insert chunk.chunkId chunk)
        table)[id]? = (if id ∈ ids then kept id else none).or table[id]? by
    have hempty := hfold ∅
    rwa [TreeMap.getElem?_emptyc, Option.or_none] at hempty
  induction ids with
  | nil => simp
  | cons first rest ih =>
    intro table
    cases hfirst : kept first with
    | none =>
      rw [List.filterMap_cons_none hfirst, ih]
      by_cases hid : id = first
      · simp [hid, hfirst]
      · simp [hid]
    | some chunk =>
      have hchunk := hkept first chunk hfirst
      rw [List.filterMap_cons_some hfirst, List.foldl_cons, ih, TreeMap.getElem?_insert, hchunk]
      by_cases hid : id = first
      · subst hid
        by_cases hagain : id ∈ rest <;> simp [hfirst, hagain]
      · have hne : ¬ compare first id = .eq := fun h => hid (LawfulEqCmp.eq_of_compare h).symm
        simp [hid, hne]

/-- Results joined with the chunks that were fetched for them. -/
theorem withChunks_eq {kept : String → Option ChunkRecord}
    (hkept : ∀ id chunk, kept id = some chunk → chunk.chunkId = id) {results : List (Fused Float)}
    (h : (results.map (·.chunkId)).Nodup) :
    withChunks results ((results.map (·.chunkId)).filterMap kept) =
      results.map fun result => ⟨result, kept result.chunkId⟩ := by
  rw [withChunks, takeChunks_eq _ h]
  refine List.map_congr_left fun result hresult => ?_
  rw [getElem?_chunkTable hkept, if_pos (List.mem_map_of_mem hresult)]

/-! ## Searching for chunks -/

/-- A search fails exactly if every retriever does.  Otherwise it answers with the first results of
the fusion of the retrievers' lists, in which one that failed has an empty list in its place.  A
search for chunks that can fetch them answers with the same results in the same order; the chunk of
a result is the one that the store keeps under its identifier, and missing only if there is no such
chunk. -/
theorem search_records_exact (searcher : Searcher) (store query : String) (limit : Nat)
    {b : Backend} (hb : b.Reached) :
    ((∃ e, searcher.search store query limit = .error e) ↔
      ∀ retriever ∈ searcher.retrievers, ∃ e,
        retriever.search store query (max searcher.topK limit) = .error e) ∧
    (∀ e, searcher.search store query limit = .error e →
      searcher.searchRecords store query limit b = (.error e, b)) ∧
    ∀ results, searcher.search store query limit = .ok results →
      (∃ lists weights, searcher.Gathers store query limit lists weights ∧
        results = (fuse lists weights searcher.k).take limit) ∧
      ∀ chunks, (RecordStore.findChunks store (results.map (·.chunkId)) b).1 = .ok chunks →
        ∃ found, searcher.searchRecords store query limit b = (.ok found, b) ∧
          found.map (·.result) = results ∧
          ∀ hit ∈ found, ∀ chunk, hit.chunk = some chunk ↔
            b.KeepsChunk store chunk ∧ chunk.chunkId = hit.result.chunkId := by
  refine ⟨search_error_iff, fun e he => ?_, fun results hresults => ⟨?_, fun chunks hchunks => ?_⟩⟩
  · rw [searchRecords, he]
  · exact ⟨_, _, gathers searcher store query limit, search_eq_of_ok hresults⟩
  · obtain hmissing | ⟨kept, hfetch, hkeeps⟩ := hb.fetches store
    · rw [hmissing] at hchunks
      cases hchunks
    · have hnodup : (results.map (·.chunkId)).Nodup := by
        rw [search_eq_of_ok hresults]
        exact (nodup_chunkIds_fuse _ _ _).sublist ((List.take_sublist _ _).map _)
      have hkept : ∀ id chunk, kept id = some chunk → chunk.chunkId = id :=
        fun id chunk h => ((hkeeps id chunk).1 h).2
      refine ⟨results.map fun result => ⟨result, kept result.chunkId⟩, ?_, ?_, ?_⟩
      · rw [searchRecords, hresults]
        simp only [hfetch, withChunks_eq hkept hnodup]
      · rw [List.map_map]
        exact List.map_id _
      · intro hit hhit chunk
        obtain ⟨result, -, rfl⟩ := List.mem_map.1 hhit
        exact hkeeps result.chunkId chunk

/-- A chunk of the store `s`. -/
def joinedChunk : ChunkRecord :=
  { chunkId := "a", documentId := "d", path := "a.txt", language := "unknown", nodeType := "",
    startLine := 1, endLine := 1, content := "x" }

/-- A retriever that fails, and one that finds a chunk twice and another chunk that the store does
not have. -/
def joiningSample : Searcher where
  retrievers :=
    [{ name := "lexical", search := fun _ _ _ => .error (.embedding "down") },
      { name := "dense", search := fun _ _ _ => .ok [⟨"a", 3⟩, ⟨"b", 2⟩, ⟨"a", 1⟩] }]

/-- A backend with the chunk. -/
def joiningBackend : Backend :=
  after [.createStore "s", .putChunks "s" [joinedChunk]] (.fresh .relational)

theorem search_records_exact_sample :
    joiningBackend.Reached ∧
    ∃ found, joiningSample.searchRecords "s" "x" 10 joiningBackend = (.ok found, joiningBackend) ∧
      ∀ hit ∈ found, hit.chunk = some joinedChunk ↔ "a" = hit.result.chunkId := by
  have hreached : joiningBackend.Reached := Backend.reached_after _ _
  have hkeeps : joiningBackend.KeepsChunk "s" joinedChunk :=
    ⟨_, List.mem_singleton_self _, rfl, rfl⟩
  obtain ⟨hfails, -, hfound⟩ := search_records_exact joiningSample "s" "x" 10 hreached
  cases hsearch : joiningSample.search "s" "x" 10 with
  | error e =>
    obtain ⟨_, hdense⟩ := hfails.1 ⟨e, hsearch⟩ _ (List.mem_cons_of_mem _ List.mem_cons_self)
    cases hdense
  | ok results =>
    obtain hmissing | ⟨kept, hfetch, -⟩ := hreached.fetches "s"
    · have hempty : (RecordStore.findChunks "s" [] joiningBackend).1 = .ok [] := rfl
      rw [hmissing] at hempty
      cases hempty
    · obtain ⟨found, hrecords, -, hchunks⟩ := (hfound results hsearch).2 _ (by rw [hfetch])
      refine ⟨hreached, found, hrecords, fun hit hhit => ?_⟩
      exact (hchunks hit hhit joinedChunk).trans (and_iff_right hkeeps)

end Searcher

end CodeIndex
