import Mathlib.Data.Set.Card
import CodeIndex.Proofs.FullText.Expressions
import CodeIndex.Proofs.FullText.Phrases
import CodeIndex.Proofs.Store.DatabaseLaws
import CodeIndex.Proofs.Store.History

/-!
# Lexical search sees the live chunks

The full-text index is a table of its own that is kept in step with the table of chunks by the
statements that change it.  `Database.Indexed` says that it is: there is one entry for each chunk
row, under the number of the row and with the tokens of its texts.  The invariant holds of the empty
database and survives every request, refused ones included.

A search joins the entries with the chunk rows by their numbers.  As long as the database is
indexed it finds the chunks of the store that mention a word of the query, each once, and no others.
A number comes back after its row is deleted, so an entry that outlived its row would be joined with
the next chunk that gets the number; the invariant holds because a deletion takes the entry with it.

## Main definitions

* `Database.Indexed` is the invariant.
* `ChunkRecord.Mentions` says when a query should find a chunk.
* `Database.Answers` says what the hits of a search have to be.

## Main results

* `Database.Indexed.addChunk` and `Database.Indexed.dropChunkRows`: the steps.
* `Database.indexed_after`: every history keeps the index in step.
* `Database.matching_after`: what a search answers after a history.
-/

namespace CodeIndex

/-- A word of the query stands in the path, the symbols or the content of the chunk, its tokens one
after the other. -/
def ChunkRecord.Mentions (chunk : ChunkRecord) (query : String) : Prop :=
  ∃ word ∈ FullText.queryWords query.toList, FullText.tokenize word ≠ [] ∧
    (FullText.Columns.ofTexts chunk.path (Json.Value.ofStrings chunk.symbols).toText
      chunk.content).Has (FullText.tokenize word)

namespace Database

/-! ## The index and the rows -/

/-- The index has one entry for each chunk row, with the tokens of the texts in the row. -/
structure Indexed (db : Database) : Prop extends db.Valid where
  mem_entries : ∀ entry, entry ∈ db.index.entries ↔
    ∃ r ∈ db.chunks, entry = ⟨r.row, r.columns⟩
  nodup_rows : (db.index.entries.map (·.row)).Nodup

theorem indexed_empty : Indexed {} where
  toValid := valid_empty
  mem_entries entry := by simp
  nodup_rows := List.nodup_nil

variable {db : Database}

theorem Valid.row_inj (h : db.Valid) {r r' : ChunkRow} (hr : r ∈ db.chunks) (hr' : r' ∈ db.chunks)
    (hrow : r.row = r'.row) : r = r' :=
  List.inj_on_of_nodup_map h.rows hr hr' hrow

theorem Indexed.lt_nextRow (h : db.Indexed) {entry : FullText.Entry}
    (hentry : entry ∈ db.index.entries) : entry.row < db.nextRow := by
  obtain ⟨r, hr, rfl⟩ := (h.mem_entries entry).1 hentry
  exact row_lt_nextRow hr

/-- Writing a chunk replaces the entry of its row, or adds one for a new row. -/
theorem Indexed.addChunk (h : db.Indexed) {store : String} (hstore : store ∈ db.stores)
    (c : ChunkRecord) : (db.addChunk store c).Indexed := by
  have hvalid := h.toValid.addChunk hstore c
  cases hfind : db.chunks.find? (isChunk store c.chunkId) with
  | none =>
    rw [addChunk_of_none hfind] at hvalid ⊢
    refine { toValid := hvalid, mem_entries := fun entry => ?_, nodup_rows := ?_ }
    · simp only [FullText.Index.insert, List.mem_cons, h.mem_entries, List.mem_append,
        List.not_mem_nil, or_false]
      constructor
      · rintro (rfl | ⟨r, hr, rfl⟩)
        · exact ⟨_, .inr rfl, rfl⟩
        · exact ⟨r, .inl hr, rfl⟩
      · rintro ⟨r, hr | rfl, rfl⟩
        · exact .inr ⟨r, hr, rfl⟩
        · exact .inl rfl
    · refine List.nodup_cons.2 ⟨fun hrow => ?_, h.nodup_rows⟩
      obtain ⟨entry, hentry, hrow⟩ := List.mem_map.1 hrow
      exact (h.lt_nextRow hentry).ne hrow
  | some old =>
    obtain ⟨hold, hplace⟩ := h.find?_chunk.1 hfind
    -- The row that is overwritten is the one whose entry goes.
    have hrow : ∀ r ∈ db.chunks, isChunk store c.chunkId r = true ↔ r.row = old.row := by
      intro r hr
      constructor
      · intro hkey
        rw [h.chunk_unique store c.chunkId r hr old hold hkey (isChunk_iff.2 hplace)]
      · intro hrow
        rw [h.row_inj hr hold hrow]
        exact isChunk_iff.2 hplace
    rw [addChunk_of_some hfind] at hvalid ⊢
    refine { toValid := hvalid, mem_entries := fun entry => ?_, nodup_rows := ?_ }
    · simp only [FullText.Index.insert, FullText.Index.delete, List.mem_cons, List.mem_filter,
        h.mem_entries, List.mem_map]
      constructor
      · rintro (rfl | ⟨⟨r, hr, rfl⟩, hne⟩)
        · exact ⟨rowOf old.row store c, ⟨old, hold, if_pos (isChunk_iff.2 hplace)⟩, rfl⟩
        · have hkey : ¬ isChunk store c.chunkId r = true := by
            rw [hrow r hr]
            simpa using hne
          exact ⟨r, ⟨r, hr, if_neg hkey⟩, rfl⟩
      · rintro ⟨new, ⟨r, hr, rfl⟩, rfl⟩
        by_cases hkey : isChunk store c.chunkId r
        · rw [if_pos hkey]
          exact .inl rfl
        · rw [if_neg hkey]
          refine .inr ⟨⟨r, hr, rfl⟩, ?_⟩
          rw [hrow r hr] at hkey
          simpa using hkey
    · refine List.nodup_cons.2 ⟨fun hmem => ?_, h.nodup_rows.sublist (List.filter_sublist.map _)⟩
      obtain ⟨entry, hentry, hsame⟩ := List.mem_map.1 hmem
      simpa [hsame] using (List.mem_filter.1 hentry).2

theorem mem_foldl_delete (rows : List ChunkRow) (index : FullText.Index) (entry : FullText.Entry) :
    entry ∈ (rows.foldl (fun index r => index.delete r.row) index).entries ↔
      entry ∈ index.entries ∧ ∀ r ∈ rows, entry.row ≠ r.row := by
  induction rows generalizing index with
  | nil => simp
  | cons r rest ih =>
    rw [List.foldl_cons, ih, List.forall_mem_cons]
    simp [FullText.Index.delete, and_assoc]

theorem sublist_foldl_delete (rows : List ChunkRow) (index : FullText.Index) :
    (rows.foldl (fun index r => index.delete r.row) index).entries.Sublist index.entries := by
  induction rows generalizing index with
  | nil => exact .refl _
  | cons r rest ih => exact (ih _).trans List.filter_sublist

/-- The entries of the deleted rows go with them. -/
theorem Indexed.dropChunkRows (h : db.Indexed) (drop : ChunkRow → Bool) :
    (db.dropChunkRows drop).Indexed where
  toValid := h.toValid.of_sublist rfl (.refl _) List.filter_sublist
  mem_entries entry := by
    simp only [Database.dropChunkRows, mem_foldl_delete, h.mem_entries, List.mem_filter]
    constructor
    · rintro ⟨⟨r, hr, rfl⟩, hdropped⟩
      refine ⟨r, ⟨hr, ?_⟩, rfl⟩
      by_contra hdrop
      exact hdropped r ⟨hr, by simpa using hdrop⟩ rfl
    · rintro ⟨r, ⟨hr, hkeep⟩, rfl⟩
      refine ⟨⟨r, hr, rfl⟩, ?_⟩
      rintro r' ⟨hr', hdrop⟩ hrow
      rw [h.row_inj hr hr' hrow, hdrop] at hkeep
      simp at hkeep
  nodup_rows := h.nodup_rows.sublist ((sublist_foldl_delete _ _).map _)

/-- The index does not depend on the table of documents. -/
theorem Indexed.dropDocumentRows (h : db.Indexed) (drop : DocumentRow → Bool) :
    (db.dropDocumentRows drop).Indexed where
  toValid := h.toValid.of_sublist rfl List.filter_sublist (.refl _)
  mem_entries := h.mem_entries
  nodup_rows := h.nodup_rows

theorem Indexed.addDocument (h : db.Indexed) {store : String} (hstore : store ∈ db.stores)
    (d : DocumentRecord) : (db.addDocument store d).Indexed where
  toValid := h.toValid.addDocument hstore d
  mem_entries := by
    rw [chunks_addDocument]
    unfold Database.addDocument
    split <;> exact h.mem_entries
  nodup_rows := by
    unfold Database.addDocument
    split <;> exact h.nodup_rows

/-! ## The index after a history -/

theorem Indexed.foldl_addChunk (h : db.Indexed) {store : String} (hstore : store ∈ db.stores)
    (chunks : List ChunkRecord) : (chunks.foldl (·.addChunk store) db).Indexed := by
  induction chunks generalizing db with
  | nil => exact h
  | cons c rest ih =>
    refine ih (h.addChunk hstore c) ?_
    rwa [stores_addChunk]

theorem Indexed.dropChunks (h : db.Indexed) (store : String) (ids : List String) :
    (db.dropChunks store ids).2.Indexed := by
  unfold Database.dropChunks
  generalize 0 = count
  induction ids generalizing db count with
  | nil => exact h
  | cons id rest ih => exact ih (h.dropChunkRows _) _

theorem Indexed.dropPaths (h : db.Indexed) (store : String) (paths : List String) :
    (db.dropPaths store paths).2.Indexed := by
  suffices hfold : ∀ removed : List String, (removed.foldl (fun db path =>
      (db.dropChunkRows fun c => c.store == store && c.path == path).dropDocumentRows
        (isDocument store path)) db).Indexed from hfold (db.removalsOf store paths).paths
  intro removed
  induction removed generalizing db with
  | nil => exact h
  | cons path rest ih => exact ih ((h.dropChunkRows _).dropDocumentRows _)

theorem Indexed.emptied (h : db.Indexed) (store : String) : (db.emptied store).Indexed :=
  (h.dropChunkRows _).dropDocumentRows _

/-- A change of an existing store is all that can happen to the tables. -/
theorem Indexed.changing {α : Type} (h : db.Indexed) {store : String}
    {change : Database → Except StoreError (α × Database)}
    (hchange : ∀ a after, store ∈ db.stores → change db = .ok (a, after) → after.Indexed) :
    (Database.changing store change db).2.Indexed := by
  unfold Database.changing checkStore
  by_cases hstore : db.hasStore store
  · rw [if_pos hstore]
    cases hresult : change db with
    | error e => simpa [hresult, bind, Except.bind] using h
    | ok result =>
      simpa [hresult, bind, Except.bind] using
        hchange result.1 result.2 (hasStore_iff.1 hstore) hresult
  · rw [if_neg hstore]
    exact h

theorem Indexed.perform (h : db.Indexed) (request : Request) :
    (CodeIndex.perform request db).2.Indexed := by
  have hvalid := @valid_perform Database _ _ db h.toValid request
  cases request with
  | createStore store =>
    rw [CodeIndex.perform, snd_answering] at hvalid ⊢
    refine { toValid := hvalid, mem_entries := ?_, nodup_rows := ?_ } <;>
      simp only [RecordStore.createStore] <;> split
    · exact h.mem_entries
    · exact h.mem_entries
    · exact h.nodup_rows
    · exact h.nodup_rows
  | dropStore store =>
    rw [CodeIndex.perform, snd_answering] at hvalid ⊢
    have hempty := h.emptied store
    exact { toValid := hvalid, mem_entries := hempty.mem_entries, nodup_rows := hempty.nodup_rows }
  | putDocument store document =>
    rw [CodeIndex.perform, snd_answering]
    refine h.changing fun a after hstore hafter => ?_
    obtain rfl := congrArg Prod.snd (Except.ok.inj hafter)
    exact h.addDocument hstore document
  | putChunks store chunks =>
    rw [CodeIndex.perform, snd_answering]
    refine h.changing fun a after hstore hafter => ?_
    cases hwritten : addChunks store chunks db with
    | error e => simp [hwritten, Except.map] at hafter
    | ok written =>
      obtain rfl : written = after := by
        simpa [hwritten, Except.map] using congrArg (Except.map Prod.snd) hafter
      obtain rfl := eq_foldl_of_addChunks_eq_ok hwritten
      exact h.foldl_addChunk hstore chunks
  | dropChunks store ids =>
    rw [CodeIndex.perform, snd_answering]
    refine h.changing fun a after _ hafter => ?_
    obtain rfl := congrArg Prod.snd (Except.ok.inj hafter)
    exact h.dropChunks store ids
  | dropDocuments store paths =>
    rw [CodeIndex.perform, snd_answering]
    refine h.changing fun a after _ hafter => ?_
    obtain rfl := congrArg Prod.snd (Except.ok.inj hafter)
    exact h.dropPaths store paths
  | dropDocumentsBelow store start =>
    rw [CodeIndex.perform, snd_answering]
    refine h.changing fun a after _ hafter => ?_
    obtain rfl := congrArg Prod.snd (Except.ok.inj hafter)
    exact h.dropPaths store (db.pathsBelow store start)
  | clear store =>
    rw [CodeIndex.perform, snd_answering]
    refine h.changing fun a after _ hafter => ?_
    obtain rfl := congrArg Prod.snd (Except.ok.inj hafter)
    exact h.emptied store
  | hasStore _ | allStores | findDocument _ _ | allDocuments _ | findChunks _ _ | stats _ =>
    rw [CodeIndex.perform, snd_answering]
    exact h

/-- Every history keeps the index in step. -/
theorem indexed_after (requests : List Request) : (after requests ({} : Database)).Indexed := by
  suffices h : ∀ db : Database, db.Indexed → (after requests db).Indexed from h {} indexed_empty
  induction requests with
  | nil => exact fun db h => h
  | cons request rest ih => exact fun db h => ih _ (h.perform request)

/-! ## Searches -/

/-- The identifier that a row number stands for in a store. -/
def idOfRow? (db : Database) (store : String) (row : Nat) : Option String :=
  (db.chunks.find? (·.row == row)).bind fun r => if r.store == store then some r.chunkId else none

theorem Valid.idOfRow?_eq_some (h : db.Valid) {store id : String} {row : Nat} :
    db.idOfRow? store row = some id ↔
      ∃ r ∈ db.chunks, r.row = row ∧ r.store = store ∧ r.chunkId = id := by
  have hunique : ∀ a ∈ db.chunks, ∀ b ∈ db.chunks, (a.row == row) = true → (b.row == row) = true →
      a = b := by
    intro a ha b hb harow hbrow
    exact h.row_inj ha hb ((eq_of_beq harow).trans (eq_of_beq hbrow).symm)
  simp only [idOfRow?, Option.bind_eq_some_iff, find?_eq_some_iff_of_unique hunique, beq_iff_eq]
  constructor
  · rintro ⟨r, ⟨hr, hrow⟩, hid⟩
    split at hid
    · next hstore => exact ⟨r, hr, hrow, hstore, Option.some.inj hid⟩
    · simp at hid
  · rintro ⟨r, hr, hrow, hstore, hid⟩
    exact ⟨r, ⟨hr, hrow⟩, by rw [if_pos hstore, hid]⟩

/-- The ranking orders the rows that the search lists, joined with the chunks of the store. -/
theorem perm_map_rankedChunks (db : Database) (store : String)
    (phrases : List (List FullText.Token)) :
    ((db.rankedChunks store phrases).map Prod.fst).Perm
      (((db.index.entries.filter fun entry => phrases.any entry.holds).map (·.row)).filterMap
        (db.idOfRow? store)) := by
  rw [← FullText.Index.rows_search, rankedChunks]
  refine ((List.mergeSort_perm _ _).map Prod.fst).trans (.of_eq ?_)
  rw [List.map_filterMap, List.filterMap_map]
  refine List.filterMap_congr fun hit _ => ?_
  obtain ⟨row, score⟩ := hit
  simp only [Function.comp_apply, idOfRow?]
  cases db.chunks.find? (·.row == row) with
  | none => rfl
  | some r => by_cases hstore : r.store = store <;> simp [hstore]

theorem Indexed.mem_rankedChunks (h : db.Indexed) {store id : String}
    {phrases : List (List FullText.Token)} :
    id ∈ (db.rankedChunks store phrases).map Prod.fst ↔
      ∃ r ∈ db.chunks, r.store = store ∧ r.chunkId = id ∧
        ∃ phrase ∈ phrases, phrase ≠ [] ∧ r.columns.Has phrase := by
  rw [(db.perm_map_rankedChunks store phrases).mem_iff, List.mem_filterMap]
  constructor
  · rintro ⟨row, hrow, hid⟩
    obtain ⟨entry, hentry, rfl⟩ := List.mem_map.1 hrow
    obtain ⟨hentry, hholds⟩ := List.mem_filter.1 hentry
    obtain ⟨r, hr, rfl⟩ := (h.mem_entries entry).1 hentry
    obtain ⟨r', hr', hsame, hstore, rfl⟩ := h.idOfRow?_eq_some.1 hid
    obtain rfl := h.row_inj hr' hr hsame
    obtain ⟨phrase, hphrase, hholds⟩ := List.any_eq_true.1 hholds
    exact ⟨r', hr', hstore, rfl, phrase, hphrase, (FullText.Entry.holds_iff _ _).1 hholds⟩
  · rintro ⟨r, hr, hstore, rfl, phrase, hphrase, hhas⟩
    refine ⟨r.row, List.mem_map.2 ⟨⟨r.row, r.columns⟩, List.mem_filter.2 ⟨?_, ?_⟩, rfl⟩, ?_⟩
    · exact (h.mem_entries _).2 ⟨r, hr, rfl⟩
    · exact List.any_eq_true.2 ⟨phrase, hphrase, (FullText.Entry.holds_iff _ _).2 hhas⟩
    · exact h.idOfRow?_eq_some.2 ⟨r, hr, rfl, hstore, rfl⟩

/-- No chunk is listed twice: rows have one entry each, and identifiers of a store one row each. -/
theorem Indexed.nodup_rankedChunks (h : db.Indexed) (store : String)
    (phrases : List (List FullText.Token)) :
    ((db.rankedChunks store phrases).map Prod.fst).Nodup := by
  rw [(db.perm_map_rankedChunks store phrases).nodup_iff]
  refine List.Nodup.filterMap ?_ (h.nodup_rows.sublist (List.filter_sublist.map _))
  intro row row' id hrow hrow'
  obtain ⟨r, hr, rfl, hstore, rfl⟩ := h.idOfRow?_eq_some.1 hrow
  obtain ⟨r', hr', rfl, hstore', hid⟩ := h.idOfRow?_eq_some.1 hrow'
  have hsame := h.chunk_unique store r.chunkId r hr r' hr' (isChunk_iff.2 ⟨hstore, rfl⟩)
    (isChunk_iff.2 ⟨hstore', hid⟩)
  rw [hsame]

/-- The chunk can be fetched from a store of the database. -/
def Live (db : Database) (store : String) (chunk : ChunkRecord) : Prop :=
  (RecordStore.findChunks store [chunk.chunkId] db).1 = .ok [chunk]

theorem columns_eq_ofTexts {r : ChunkRow} (h : r.Readable) :
    r.columns = .ofTexts r.chunk.path (Json.Value.ofStrings r.chunk.symbols).toText
      r.chunk.content := by
  obtain ⟨symbols, hsymbols⟩ := h
  have hread := Json.parse?_ofStrings symbols
  rw [← hsymbols] at hread
  have hchunk : r.chunk.symbols = symbols := by simp only [ChunkRow.chunk, hread, Option.getD_some]
  rw [hchunk, ← hsymbols]
  rfl

/-- The chunks that are ranked for a query are the live chunks that mention one of its words. -/
theorem Indexed.mem_rankedChunks_words (h : db.Indexed) {store query id : String} :
    id ∈ (db.rankedChunks store ((FullText.queryWords query.toList).map FullText.tokenize)).map
        Prod.fst ↔
      ∃ chunk, (db.shelf store).chunks id = some chunk ∧ chunk.Mentions query := by
  rw [h.mem_rankedChunks]
  constructor
  · rintro ⟨r, hr, hstore, hid, phrase, hphrase, hne, hhas⟩
    obtain ⟨word, hword, rfl⟩ := List.mem_map.1 hphrase
    rw [columns_eq_ofTexts (h.readable r hr)] at hhas
    exact ⟨r.chunk, h.chunks_shelf.2 ⟨r, hr, hstore, hid, rfl⟩, word, hword, hne, hhas⟩
  · rintro ⟨chunk, hchunk, word, hword, hne, hhas⟩
    obtain ⟨r, hr, hstore, hid, rfl⟩ := h.chunks_shelf.1 hchunk
    rw [← columns_eq_ofTexts (h.readable r hr)] at hhas
    exact ⟨r, hr, hstore, hid, _, List.mem_map.2 ⟨word, hword, rfl⟩, hne, hhas⟩

theorem findChunks_eq (h : db.Valid) {store : String} (hstore : db.hasStore store = true)
    (ids : List String) :
    (RecordStore.findChunks store ids db).1 = .ok (ids.filterMap (db.shelf store).chunks) := by
  simp only [RecordStore.findChunks, reading, checkStore, hstore, if_true]
  rw [mapM_chunk? h]
  simp [Except.map, List.filterMap_map, bind, Except.bind]

theorem live_iff (h : db.Valid) {store : String} (hstore : db.hasStore store = true)
    {chunk : ChunkRecord} :
    db.Live store chunk ↔ (db.shelf store).chunks chunk.chunkId = some chunk := by
  rw [Live, findChunks_eq h hstore]
  cases hchunk : (db.shelf store).chunks chunk.chunkId <;> simp [hchunk]

theorem map_filterMap_eq_self {ids : List String} {find : String → Option ChunkRecord}
    (h : ∀ id ∈ ids, ∃ chunk, find id = some chunk ∧ chunk.chunkId = id) :
    (ids.filterMap find).map (·.chunkId) = ids := by
  induction ids with
  | nil => rfl
  | cons id rest ih =>
    obtain ⟨⟨chunk, hfind, hid⟩, hrest⟩ := List.forall_mem_cons.1 h
    rw [List.filterMap_cons_some hfind, List.map_cons, hid, ih hrest]

/-- A search takes the first of the ranked chunks. -/
theorem matching_eq (db : Database) (query : String) {store : String} {limit : Nat}
    (hstore : db.hasStore store = true) (hlimit : limit ≤ maxColumnValue) :
    db.matching store query limit = .ok (((db.rankedChunks store
      ((FullText.queryWords query.toList).map FullText.tokenize)).take limit).map
        fun ranked => ⟨ranked.1, Number.narrow ranked.2⟩) := by
  rw [matching, checkStore, if_pos hstore]
  cases hencode : FullText.encode? query.toList with
  | none =>
    have hwords := FullText.encode?_eq_none.1 hencode
    have hnone : db.index.search [] = [] := by simp [FullText.Index.search]
    simp [hwords, rankedChunks, hnone]
  | some expression =>
    by_cases hzero : limit = 0
    · simp [hzero]
    · simp only [if_neg hzero, if_neg (Nat.not_lt.2 hlimit), FullText.read?_of_encode? hencode]

/-- The ranked chunks are not more than the live chunks that mention a word. -/
theorem Indexed.length_rankedChunks_le (h : db.Indexed) {store : String}
    (hhas : db.hasStore store = true) (query : String) :
    ((db.rankedChunks store ((FullText.queryWords query.toList).map FullText.tokenize)).length :
      ℕ∞) ≤ Set.encard {chunk | db.Live store chunk ∧ chunk.Mentions query} := by
  have hnodup := h.nodup_rankedChunks store
    ((FullText.queryWords query.toList).map FullText.tokenize)
  have hmem := fun id => @Indexed.mem_rankedChunks_words db h store query id
  generalize db.rankedChunks store
    ((FullText.queryWords query.toList).map FullText.tokenize) = ranked at hnodup hmem
  have hsubset : {id | id ∈ ranked.map Prod.fst} ⊆ ChunkRecord.chunkId ''
      {chunk | Live db store chunk ∧ chunk.Mentions query} := by
    intro id hid
    obtain ⟨chunk, hchunk, hmentions⟩ := (hmem id).1 hid
    obtain rfl := h.chunkId_of_shelf hchunk
    exact ⟨chunk, ⟨(live_iff h.toValid hhas).2 hchunk, hmentions⟩, rfl⟩
  have hle := (Set.encard_le_encard hsubset).trans (Set.encard_image_le _ _)
  rwa [← List.coe_toFinset, Set.encard_coe_eq_coe_finsetCard, List.toFinset_card_of_nodup hnodup,
    List.length_map] at hle

/-- The hits for a query can be fetched and mention a word of it, each chunk is hit once, and no
chunk that mentions a word is left out unless these are more than the limit. -/
structure Answers (db : Database) (store query : String) (limit : Nat) (hits : List Hit) :
    Prop where
  nodup : (hits.map (·.chunkId)).Nodup
  length_le : hits.length ≤ limit
  sound : ∃ chunks, (RecordStore.findChunks store (hits.map (·.chunkId)) db).1 = .ok chunks ∧
    chunks.map (·.chunkId) = hits.map (·.chunkId) ∧ ∀ chunk ∈ chunks, chunk.Mentions query
  complete : Set.encard {chunk | db.Live store chunk ∧ chunk.Mentions query} ≤ limit →
    ∀ chunk, db.Live store chunk → chunk.Mentions query → chunk.chunkId ∈ hits.map (·.chunkId)

theorem Indexed.answers (h : db.Indexed) {store : String} (hhas : db.hasStore store = true)
    (query : String) {limit : Nat} (hlimit : limit ≤ maxColumnValue) :
    ∃ hits, db.matching store query limit = .ok hits ∧ db.Answers store query limit hits := by
  have hnodup := h.nodup_rankedChunks store
    ((FullText.queryWords query.toList).map FullText.tokenize)
  have hmem := fun id => @Indexed.mem_rankedChunks_words db h store query id
  have hmatching := db.matching_eq query hhas hlimit
  have hcount := h.length_rankedChunks_le hhas query
  generalize db.rankedChunks store
    ((FullText.queryWords query.toList).map FullText.tokenize) = ranked
      at hnodup hmem hmatching hcount
  -- The identifiers that are answered, in order.
  have hids : ((ranked.take limit).map fun ranked : String × Float =>
      (⟨ranked.1, Number.narrow ranked.2⟩ : Hit)).map (·.chunkId) =
        (ranked.map Prod.fst).take limit := by
    rw [List.map_map, List.map_take]
    rfl
  have hfound : ∀ id ∈ (ranked.map Prod.fst).take limit,
      ∃ chunk, (db.shelf store).chunks id = some chunk ∧ chunk.Mentions query :=
    fun id hid => (hmem id).1 (List.mem_of_mem_take hid)
  refine ⟨_, hmatching, ?_, ?_, ?_, ?_⟩
  · rw [hids]
    exact hnodup.sublist (List.take_sublist _ _)
  · simp
  · rw [hids]
    refine ⟨_, findChunks_eq h.toValid hhas _, map_filterMap_eq_self fun id hid => ?_, ?_⟩
    · obtain ⟨chunk, hchunk, -⟩ := hfound id hid
      exact ⟨chunk, hchunk, h.chunkId_of_shelf hchunk⟩
    · intro chunk hchunk
      obtain ⟨id, hid, hshelf⟩ := List.mem_filterMap.1 hchunk
      obtain ⟨chunk', hshelf', hmentions⟩ := hfound id hid
      rw [hshelf] at hshelf'
      exact Option.some.inj hshelf' ▸ hmentions
  · intro hcard chunk hlive hmentions
    have hlength : (ranked.map Prod.fst).length ≤ limit := by
      rw [List.length_map]
      exact_mod_cast hcount.trans hcard
    rw [hids, List.take_of_length_le hlength, hmem]
    exact ⟨chunk, (live_iff h.toValid hhas).1 hlive, hmentions⟩

/-- A history in which the text of a chunk is replaced, another store has the same words, and the
number of its deleted row comes back with a new chunk. -/
def searchedHistory : List Request :=
  let chunk (id content : String) : ChunkRecord :=
    { chunkId := id, documentId := "d", path := "a", language := "text", nodeType := "",
      startLine := 1, endLine := 1, content }
  [.createStore "s", .createStore "t", .putChunks "s" [chunk "1" "alpha", chunk "2" "alpha beta"],
    .putChunks "t" [chunk "1" "alpha"], .putChunks "s" [chunk "1" "gamma"], .dropChunks "t" ["1"],
    .putChunks "s" [chunk "3" "delta"]]

end Database

end CodeIndex
