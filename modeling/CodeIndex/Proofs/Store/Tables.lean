import Mathlib.Data.List.Nodup
import Mathlib.Data.String.Basic
import CodeIndex.Proofs.Json.Values
import CodeIndex.Proofs.Store.Shelf
import CodeIndex.Store.Relational

/-!
# The tables of the database

The invariant of the tables and what they hold as shelves.  In each table a row is found by its key,
so a search finds the row if there is one, whatever the order of the rows; this is what makes the
order in which rows were written disappear from the shelf.

## Main definitions

* `Database.Valid` is the invariant of the tables: keys and row numbers are used once, every row
  belongs to a store that exists, and every list of symbols is readable.
* `Database.shelf` is the shelf of a store.
* `Database.Keeps` relates two databases of which the second has only some of the rows of the first;
  every deletion is of this kind.
-/

namespace CodeIndex

/-! ## Rows with a key -/

section Rows

variable {α : Type} {rows : List α} {p : α → Bool}

theorem find?_eq_some_iff_of_unique (h : ∀ a ∈ rows, ∀ b ∈ rows, p a → p b → a = b) {a : α} :
    rows.find? p = some a ↔ a ∈ rows ∧ p a := by
  constructor
  · intro hfind
    exact ⟨List.mem_of_find?_eq_some hfind, List.find?_some hfind⟩
  · rintro ⟨hmem, hp⟩
    cases hfind : rows.find? p with
    | none => exact absurd hp (by simpa using List.find?_eq_none.1 hfind a hmem)
    | some b =>
      rw [h b (List.mem_of_find?_eq_some hfind) a hmem (List.find?_some hfind) hp]

theorem find?_filter_of_unique (h : ∀ a ∈ rows, ∀ b ∈ rows, p a → p b → a = b)
    (keep : α → Bool) : (rows.filter keep).find? p = (rows.find? p).filter keep := by
  have hfilter : ∀ a ∈ rows.filter keep, ∀ b ∈ rows.filter keep, p a → p b → a = b :=
    fun a ha b hb => h a (List.mem_of_mem_filter ha) b (List.mem_of_mem_filter hb)
  ext a
  rw [find?_eq_some_iff_of_unique hfilter, Option.filter_eq_some_iff,
    find?_eq_some_iff_of_unique h, List.mem_filter]
  tauto

/-! A row is written under its key: over the row that has the key, or else at the end.  Here `isKey`
decides whether a row has a key. -/

variable {κ : Type} {key : α → κ} {isKey : κ → α → Bool}

theorem map_key_overwrite (new : α) (hkey : ∀ k a, isKey k a = true ↔ key a = k) (rows : List α) :
    (rows.map fun a => if isKey (key new) a then new else a).map key = rows.map key := by
  rw [List.map_map]
  refine List.map_congr_left fun a _ => ?_
  by_cases ha : isKey (key new) a
  · rw [Function.comp_apply, if_pos ha, (hkey _ a).1 ha]
  · rw [Function.comp_apply, if_neg ha]

theorem find?_overwrite [DecidableEq κ] (new : α) (hkey : ∀ k a, isKey k a = true ↔ key a = k)
    (hold : (rows.find? (isKey (key new))).isSome) (k : κ) :
    (rows.map fun a => if isKey (key new) a then new else a).find? (isKey k) =
      if k = key new then some new else rows.find? (isKey k) := by
  have hcomp : (isKey k ∘ fun a => if isKey (key new) a then new else a) = isKey k := by
    funext a
    by_cases ha : isKey (key new) a
    · rw [Function.comp_apply, if_pos ha, Bool.eq_iff_iff, hkey, hkey, (hkey _ a).1 ha]
    · rw [Function.comp_apply, if_neg ha]
  rw [List.find?_map, hcomp]
  by_cases hk : k = key new
  · subst hk
    obtain ⟨old, hold⟩ := Option.isSome_iff_exists.1 hold
    rw [hold, Option.map_some, if_pos (List.find?_some hold), if_pos rfl]
  · rw [if_neg hk]
    cases hother : rows.find? (isKey k) with
    | none => rfl
    | some a =>
      have hne : ¬ isKey (key new) a := by
        rw [hkey, (hkey k a).1 (List.find?_some hother)]
        exact hk
      rw [Option.map_some, if_neg hne]

theorem nodup_key_append (new : α) (hkey : ∀ k a, isKey k a = true ↔ key a = k)
    (hnew : rows.find? (isKey (key new)) = none) (h : (rows.map key).Nodup) :
    ((rows ++ [new]).map key).Nodup := by
  rw [List.map_append, List.nodup_append]
  refine ⟨h, by simp, ?_⟩
  rintro k hk k' hk' rfl
  obtain ⟨a, ha, rfl⟩ := List.mem_map.1 hk
  simp only [List.map_cons, List.map_nil, List.mem_singleton] at hk'
  exact List.find?_eq_none.1 hnew a ha ((hkey _ a).2 hk')

theorem find?_append_new [DecidableEq κ] (new : α) (hkey : ∀ k a, isKey k a = true ↔ key a = k)
    (hnew : rows.find? (isKey (key new)) = none) (k : κ) :
    (rows ++ [new]).find? (isKey k) = if k = key new then some new else rows.find? (isKey k) := by
  rw [List.find?_append]
  by_cases hk : k = key new
  · subst hk
    simp [hnew, (hkey (key new) new).2 rfl]
  · have hne : isKey k new = false := by
      rw [Bool.eq_false_iff, ne_eq, hkey]
      exact fun h => hk h.symm
    simp [hk, hne]

end Rows

/-! ## Sorted texts -/

theorem Database.mem_sortTexts {text : String} {texts : List String} :
    text ∈ Database.sortTexts texts ↔ text ∈ texts :=
  List.mem_mergeSort

/-- A list without repetitions that was sorted by some key is strictly ascending in it. -/
theorem pairwise_lt_mergeSort {α : Type} (key : α → String) {rows : List α}
    (h : (rows.map key).Nodup) :
    (rows.mergeSort fun a b => decide (key a ≤ key b)).Pairwise fun a b => key a < key b := by
  have hsorted : (rows.mergeSort fun a b => decide (key a ≤ key b)).Pairwise
      fun a b => key a ≤ key b := by
    have htrans : ∀ a b c : α, decide (key a ≤ key b) = true → decide (key b ≤ key c) = true →
        decide (key a ≤ key c) = true := by
      intro a b c hab hbc
      simp only [decide_eq_true_eq] at hab hbc ⊢
      exact hab.trans hbc
    have htotal : ∀ a b : α, (decide (key a ≤ key b) || decide (key b ≤ key a)) = true := by
      intro a b
      simpa using le_total (key a) (key b)
    exact (List.pairwise_mergeSort htrans htotal rows).imp fun hab => of_decide_eq_true hab
  have hnodup : (rows.mergeSort fun a b => decide (key a ≤ key b)).Pairwise
      fun a b => key a ≠ key b := by
    have hperm := (List.mergeSort_perm rows fun a b => decide (key a ≤ key b)).map key
    exact List.pairwise_map.1 (hperm.nodup_iff.2 h)
  exact (hsorted.and hnodup).imp fun ⟨hle, hne⟩ => lt_of_le_of_ne hle hne

theorem Database.pairwise_sortTexts {texts : List String} (h : texts.Nodup) :
    (Database.sortTexts texts).Pairwise (· < ·) :=
  pairwise_lt_mergeSort id (by simpa using h)

/-! ## The records of rows -/

/-- What a row of the table of documents keeps. -/
def DocumentRow.record (r : DocumentRow) : DocumentRecord :=
  { documentId := r.documentId, path := r.path, contentHash := r.contentHash,
    language := r.language, indexedAt := r.indexedAt }

namespace ChunkRow

/-- The symbols of a row can be read. -/
def Readable (r : ChunkRow) : Prop := ∃ symbols, r.symbols = (Json.Value.ofStrings symbols).toText

/-- The chunk of a row whose symbols can be read. -/
def chunk (r : ChunkRow) : ChunkRecord :=
  { chunkId := r.chunkId, documentId := r.documentId, path := r.path, language := r.language,
    nodeType := r.nodeType, startLine := r.startLine, endLine := r.endLine, content := r.content,
    symbols := ((Json.parse? r.symbols.toList).bind Json.Value.strings?).getD [] }

theorem record_eq_ok {r : ChunkRow} (h : r.Readable) : r.record = .ok r.chunk := by
  obtain ⟨symbols, hsymbols⟩ := h
  have hread := Json.parse?_ofStrings symbols
  rw [← hsymbols] at hread
  simp only [record, chunk, hread, Option.getD_some]

end ChunkRow

namespace Database

/-! ## The invariant -/

/-- The key of a row of the table of documents. -/
def documentKey (r : DocumentRow) : String × String := (r.store, r.path)

/-- The key of a row of the table of chunks. -/
def chunkKey (r : ChunkRow) : String × String := (r.store, r.chunkId)

/-- Every key and every row number is used once, every row belongs to a store, and the symbols of
every chunk row can be read. -/
structure Valid (db : Database) : Prop where
  stores : db.stores.Nodup
  documentKeys : (db.documents.map documentKey).Nodup
  chunkKeys : (db.chunks.map chunkKey).Nodup
  rows : (db.chunks.map (·.row)).Nodup
  documentStores : ∀ r ∈ db.documents, r.store ∈ db.stores
  chunkStores : ∀ r ∈ db.chunks, r.store ∈ db.stores
  readable : ∀ r ∈ db.chunks, r.Readable

theorem valid_empty : Valid {} where
  stores := List.nodup_nil
  documentKeys := List.nodup_nil
  chunkKeys := List.nodup_nil
  rows := List.nodup_nil
  documentStores := by simp
  chunkStores := by simp
  readable := by simp

@[simp] theorem isDocument_iff {store path : String} {r : DocumentRow} :
    isDocument store path r = true ↔ r.store = store ∧ r.path = path := by
  simp [isDocument]

@[simp] theorem isChunk_iff {store id : String} {r : ChunkRow} :
    isChunk store id r = true ↔ r.store = store ∧ r.chunkId = id := by
  simp [isChunk]

theorem isDocument_iff_key (k : String × String) (r : DocumentRow) :
    isDocument k.1 k.2 r = true ↔ documentKey r = k := by
  rw [isDocument_iff, documentKey, Prod.ext_iff]

theorem isChunk_iff_key (k : String × String) (r : ChunkRow) :
    isChunk k.1 k.2 r = true ↔ chunkKey r = k := by
  rw [isChunk_iff, chunkKey, Prod.ext_iff]

/-- The shelf of a store. -/
def shelf (db : Database) (store : String) : Shelf where
  documents path := (db.documents.find? (isDocument store path)).map DocumentRow.record
  chunks id := (db.chunks.find? (isChunk store id)).map ChunkRow.chunk

variable {db : Database}

theorem documents_shelf_eq (db : Database) (store path : String) :
    (db.shelf store).documents path =
      (db.documents.find? (isDocument store path)).map DocumentRow.record := rfl

theorem chunks_shelf_eq (db : Database) (store id : String) :
    (db.shelf store).chunks id = (db.chunks.find? (isChunk store id)).map ChunkRow.chunk := rfl

theorem Valid.document_unique (h : db.Valid) (store path : String) :
    ∀ a ∈ db.documents, ∀ b ∈ db.documents,
      isDocument store path a → isDocument store path b → a = b := by
  intro a ha b hb hpa hpb
  rw [isDocument_iff] at hpa hpb
  exact List.inj_on_of_nodup_map h.documentKeys ha hb (by simp [documentKey, hpa, hpb])

theorem Valid.chunk_unique (h : db.Valid) (store id : String) :
    ∀ a ∈ db.chunks, ∀ b ∈ db.chunks, isChunk store id a → isChunk store id b → a = b := by
  intro a ha b hb hpa hpb
  rw [isChunk_iff] at hpa hpb
  exact List.inj_on_of_nodup_map h.chunkKeys ha hb (by simp [chunkKey, hpa, hpb])

theorem Valid.find?_document (h : db.Valid) {store path : String} {r : DocumentRow} :
    db.documents.find? (isDocument store path) = some r ↔
      r ∈ db.documents ∧ r.store = store ∧ r.path = path := by
  rw [find?_eq_some_iff_of_unique (h.document_unique store path), isDocument_iff]

theorem Valid.find?_chunk (h : db.Valid) {store id : String} {r : ChunkRow} :
    db.chunks.find? (isChunk store id) = some r ↔
      r ∈ db.chunks ∧ r.store = store ∧ r.chunkId = id := by
  rw [find?_eq_some_iff_of_unique (h.chunk_unique store id), isChunk_iff]

theorem Valid.chunks_shelf (h : db.Valid) {store id : String} {chunk : ChunkRecord} :
    (db.shelf store).chunks id = some chunk ↔
      ∃ r ∈ db.chunks, r.store = store ∧ r.chunkId = id ∧ r.chunk = chunk := by
  simp only [shelf, Option.map_eq_some_iff, h.find?_chunk]
  tauto

theorem Valid.documents_shelf (h : db.Valid) {store path : String} {document : DocumentRecord} :
    (db.shelf store).documents path = some document ↔
      ∃ r ∈ db.documents, r.store = store ∧ r.path = path ∧ r.record = document := by
  simp only [shelf, Option.map_eq_some_iff, h.find?_document]
  tauto

theorem Valid.keyed_shelf (h : db.Valid) (store : String) : (db.shelf store).Keyed where
  documents path document hdocument := by
    obtain ⟨r, -, -, rfl, rfl⟩ := h.documents_shelf.1 hdocument
    rfl
  chunks id chunk hchunk := by
    obtain ⟨r, -, -, rfl, rfl⟩ := h.chunks_shelf.1 hchunk
    rfl

/-- A store that does not exist has no rows. -/
theorem Valid.shelf_of_not_mem (h : db.Valid) {store : String} (hstore : store ∉ db.stores) :
    db.shelf store = {} := by
  ext1
  · funext path
    refine Option.eq_none_iff_forall_ne_some.2 fun document hdocument => hstore ?_
    obtain ⟨r, hr, rfl, -⟩ := h.documents_shelf.1 hdocument
    exact h.documentStores r hr
  · funext id
    refine Option.eq_none_iff_forall_ne_some.2 fun chunk hchunk => hstore ?_
    obtain ⟨r, hr, rfl, -⟩ := h.chunks_shelf.1 hchunk
    exact h.chunkStores r hr

/-! ## Writing -/

/-- The row that is written for a chunk. -/
def rowOf (row : Nat) (store : String) (c : ChunkRecord) : ChunkRow :=
  { row, store, chunkId := c.chunkId, documentId := c.documentId, path := c.path,
    language := c.language, nodeType := c.nodeType, startLine := c.startLine,
    endLine := c.endLine, content := c.content,
    symbols := (Json.Value.ofStrings c.symbols).toText }

theorem readable_rowOf (row : Nat) (store : String) (c : ChunkRecord) :
    (rowOf row store c).Readable :=
  ⟨c.symbols, rfl⟩

theorem chunk_rowOf (row : Nat) (store : String) (c : ChunkRecord) :
    (rowOf row store c).chunk = c.plain := by
  have hread := Json.parse?_ofStrings c.symbols
  simp [ChunkRow.chunk, rowOf, hread, ChunkRecord.plain]

/-- A row with the identifier is overwritten where it stands. -/
theorem addChunk_of_some {store : String} {c : ChunkRecord} {old : ChunkRow}
    (hold : db.chunks.find? (isChunk store c.chunkId) = some old) :
    db.addChunk store c =
      { db with
        chunks := db.chunks.map fun r =>
          if isChunk store c.chunkId r then rowOf old.row store c else r
        index := (db.index.delete old.row).insert old.row (rowOf old.row store c).columns } := by
  simp only [addChunk, hold]
  rfl

/-- A new row has a number that no other row has, though a deleted row may have had it. -/
theorem row_lt_nextRow {r : ChunkRow} (hr : r ∈ db.chunks) : r.row < db.nextRow :=
  Nat.lt_succ_of_le (List.le_max?_getD_of_mem (List.mem_map_of_mem hr))

/-- A row for a new identifier is put at the end. -/
theorem addChunk_of_none {store : String} {c : ChunkRecord}
    (hold : db.chunks.find? (isChunk store c.chunkId) = none) :
    db.addChunk store c =
      { db with
        chunks := db.chunks ++ [rowOf db.nextRow store c]
        index := db.index.insert db.nextRow (rowOf db.nextRow store c).columns } := by
  simp only [addChunk, hold]
  rfl

theorem documents_addChunk (db : Database) (store : String) (c : ChunkRecord) :
    (db.addChunk store c).documents = db.documents := by
  cases hold : db.chunks.find? (isChunk store c.chunkId) with
  | none => rw [addChunk_of_none hold]
  | some old => rw [addChunk_of_some hold]

theorem stores_addChunk (db : Database) (store : String) (c : ChunkRecord) :
    (db.addChunk store c).stores = db.stores := by
  cases hold : db.chunks.find? (isChunk store c.chunkId) with
  | none => rw [addChunk_of_none hold]
  | some old => rw [addChunk_of_some hold]

/-- The row that is overwritten is the only one with its key, so every row keeps its number. -/
theorem Valid.row_overwrite (h : db.Valid) {store : String} {c : ChunkRecord} {old : ChunkRow}
    (hold : db.chunks.find? (isChunk store c.chunkId) = some old) {r : ChunkRow}
    (hr : r ∈ db.chunks) :
    (if isChunk store c.chunkId r then rowOf old.row store c else r).row = r.row := by
  by_cases hkey : isChunk store c.chunkId r
  · have hold' := h.find?_chunk.1 hold
    obtain rfl : old = r := h.chunk_unique store c.chunkId old hold'.1 r hr
      (isChunk_iff.2 hold'.2) hkey
    rw [if_pos hkey]
    rfl
  · rw [if_neg hkey]

theorem Valid.addChunk (h : db.Valid) {store : String} (hstore : store ∈ db.stores)
    (c : ChunkRecord) : (db.addChunk store c).Valid := by
  cases hfind : db.chunks.find? (isChunk store c.chunkId) with
  | some old =>
    -- Rows after the change: the written one in its place, the others as they were.
    have hforall : ∀ {P : ChunkRow → Prop}, (∀ r ∈ db.chunks, P r) → P (rowOf old.row store c) →
        ∀ r ∈ db.chunks.map fun r => if isChunk store c.chunkId r then rowOf old.row store c else r,
          P r := by
      intro P hrows hwritten new hnew
      obtain ⟨r, hr, rfl⟩ := List.mem_map.1 hnew
      split
      · exact hwritten
      · exact hrows r hr
    rw [addChunk_of_some hfind]
    exact {
      stores := h.stores
      documentKeys := h.documentKeys
      documentStores := h.documentStores
      chunkKeys := by
        have hkeys := map_key_overwrite (rowOf old.row store c) isChunk_iff_key db.chunks
        exact hkeys ▸ h.chunkKeys
      rows := by
        rw [List.map_map, List.map_congr_left (g := ChunkRow.row)]
        · exact h.rows
        · exact fun r hr => h.row_overwrite hfind hr
      chunkStores := hforall h.chunkStores hstore
      readable := hforall h.readable (readable_rowOf _ _ _) }
  | none =>
    have hforall : ∀ {P : ChunkRow → Prop}, (∀ r ∈ db.chunks, P r) → P (rowOf db.nextRow store c) →
        ∀ r ∈ db.chunks ++ [rowOf db.nextRow store c], P r := by
      intro P hrows hwritten r hr
      obtain hr | hr := List.mem_append.1 hr
      · exact hrows r hr
      · rwa [List.mem_singleton.1 hr]
    rw [addChunk_of_none hfind]
    exact {
      stores := h.stores
      documentKeys := h.documentKeys
      documentStores := h.documentStores
      chunkKeys := nodup_key_append (rowOf db.nextRow store c) isChunk_iff_key hfind h.chunkKeys
      rows := by
        rw [List.map_append, List.nodup_append]
        refine ⟨h.rows, by simp, ?_⟩
        rintro row hrow row' hrow' rfl
        obtain ⟨r, hr, rfl⟩ := List.mem_map.1 hrow
        simp only [List.map_cons, List.map_nil, List.mem_singleton] at hrow'
        exact (row_lt_nextRow hr).ne hrow'
      chunkStores := hforall h.chunkStores hstore
      readable := hforall h.readable (readable_rowOf _ _ _) }

/-- After a chunk was written its row is found under its key, and every other row as before. -/
theorem find?_addChunk (db : Database) (store : String) (c : ChunkRecord) :
    ∃ row, ∀ name id, (db.addChunk store c).chunks.find? (isChunk name id) =
      if (name, id) = (store, c.chunkId) then some (rowOf row store c)
      else db.chunks.find? (isChunk name id) := by
  cases hfind : db.chunks.find? (isChunk store c.chunkId) with
  | some old =>
    refine ⟨old.row, fun name id => ?_⟩
    rw [addChunk_of_some hfind]
    exact find?_overwrite (rowOf old.row store c) isChunk_iff_key
      (Option.isSome_iff_exists.2 ⟨old, hfind⟩) (name, id)
  | none =>
    refine ⟨db.nextRow, fun name id => ?_⟩
    rw [addChunk_of_none hfind]
    exact find?_append_new (rowOf db.nextRow store c) isChunk_iff_key hfind (name, id)

theorem shelf_addChunk (db : Database) (store : String) (c : ChunkRecord) :
    (db.addChunk store c).shelf =
      Function.update db.shelf store ((db.shelf store).addChunk c) := by
  obtain ⟨row, hfind⟩ := find?_addChunk db store c
  funext name
  by_cases hname : name = store
  · subst hname
    rw [Function.update_self]
    ext1
    · simp only [shelf, documents_addChunk, Shelf.documents_addChunk]
    · funext id
      by_cases hid : id = c.chunkId <;> simp [shelf, hfind, Shelf.addChunk, hid, chunk_rowOf]
  · rw [Function.update_of_ne hname]
    ext1
    · simp only [shelf, documents_addChunk]
    · simp [shelf, hfind, hname]

/-- Writing stops at the first chunk that does not fit. -/
theorem addChunks_eq_ok (store : String) (chunks : List ChunkRecord) (db : Database)
    (h : ∀ c ∈ chunks, c.startLine ≤ maxColumnValue ∧ c.endLine ≤ maxColumnValue) :
    addChunks store chunks db = .ok (chunks.foldl (·.addChunk store) db) := by
  induction chunks generalizing db with
  | nil => rfl
  | cons c rest ih =>
    obtain ⟨hc, hrest⟩ := List.forall_mem_cons.1 h
    rw [addChunks, if_neg (by omega), ih _ hrest, List.foldl_cons]

theorem eq_foldl_of_addChunks_eq_ok {store : String} {chunks : List ChunkRecord}
    {db after : Database} (h : addChunks store chunks db = .ok after) :
    after = chunks.foldl (·.addChunk store) db := by
  induction chunks generalizing db with
  | nil =>
    obtain rfl : db = after := by simpa [addChunks] using h
    rfl
  | cons c rest ih =>
    rw [addChunks] at h
    split at h
    · simp at h
    · exact ih h

theorem Valid.foldl_addChunk (h : db.Valid) {store : String} (hstore : store ∈ db.stores)
    (chunks : List ChunkRecord) : (chunks.foldl (·.addChunk store) db).Valid := by
  induction chunks generalizing db with
  | nil => exact h
  | cons c rest ih =>
    refine ih (h.addChunk hstore c) ?_
    rwa [stores_addChunk]

theorem stores_foldl_addChunk (db : Database) (store : String) (chunks : List ChunkRecord) :
    (chunks.foldl (·.addChunk store) db).stores = db.stores := by
  induction chunks generalizing db with
  | nil => rfl
  | cons c rest ih => rw [List.foldl_cons, ih, stores_addChunk]

theorem shelf_foldl_addChunk (db : Database) (store : String) (chunks : List ChunkRecord) :
    (chunks.foldl (·.addChunk store) db).shelf =
      Function.update db.shelf store ((db.shelf store).addChunks chunks) := by
  induction chunks generalizing db with
  | nil => simp [Shelf.addChunks]
  | cons c rest ih =>
    rw [List.foldl_cons, ih, shelf_addChunk, Function.update_idem, Function.update_self]
    rfl

/-- The row that is written for a document. -/
def documentRowOf (store : String) (d : DocumentRecord) : DocumentRow :=
  { store, path := d.path, documentId := d.documentId, contentHash := d.contentHash,
    language := d.language, indexedAt := d.indexedAt }

theorem documents_addDocument (db : Database) (store : String) (d : DocumentRecord) :
    (db.addDocument store d).documents =
      if db.documents.any (isDocument store d.path) then
        db.documents.map fun r => if isDocument store d.path r then documentRowOf store d else r
      else db.documents ++ [documentRowOf store d] := by
  unfold addDocument
  split <;> rfl

theorem chunks_addDocument (db : Database) (store : String) (d : DocumentRecord) :
    (db.addDocument store d).chunks = db.chunks := by
  unfold addDocument
  split <;> rfl

theorem stores_addDocument (db : Database) (store : String) (d : DocumentRecord) :
    (db.addDocument store d).stores = db.stores := by
  unfold addDocument
  split <;> rfl

theorem Valid.addDocument (h : db.Valid) {store : String} (hstore : store ∈ db.stores)
    (d : DocumentRecord) : (db.addDocument store d).Valid where
  stores := by rw [stores_addDocument]; exact h.stores
  chunkKeys := by rw [chunks_addDocument]; exact h.chunkKeys
  rows := by rw [chunks_addDocument]; exact h.rows
  chunkStores := by rw [chunks_addDocument, stores_addDocument]; exact h.chunkStores
  readable := by rw [chunks_addDocument]; exact h.readable
  documentKeys := by
    rw [documents_addDocument]
    split
    · have hkeys := map_key_overwrite (documentRowOf store d) isDocument_iff_key db.documents
      exact hkeys ▸ h.documentKeys
    · next hnone =>
      refine nodup_key_append (documentRowOf store d) isDocument_iff_key ?_ h.documentKeys
      simpa [documentKey, documentRowOf] using hnone
  documentStores := by
    rw [documents_addDocument, stores_addDocument]
    intro new hnew
    split at hnew
    · obtain ⟨r, hr, rfl⟩ := List.mem_map.1 hnew
      split
      · exact hstore
      · exact h.documentStores r hr
    · obtain hr | hr := List.mem_append.1 hnew
      · exact h.documentStores new hr
      · rw [List.mem_singleton.1 hr]
        exact hstore

theorem find?_addDocument (db : Database) (store : String) (d : DocumentRecord)
    (name path : String) : (db.addDocument store d).documents.find? (isDocument name path) =
      if (name, path) = (store, d.path) then some (documentRowOf store d)
      else db.documents.find? (isDocument name path) := by
  rw [documents_addDocument]
  split
  · next hsome =>
    refine find?_overwrite (documentRowOf store d) isDocument_iff_key ?_ (name, path)
    simpa [documentKey, documentRowOf, List.find?_isSome] using hsome
  · next hnone =>
    refine find?_append_new (documentRowOf store d) isDocument_iff_key ?_ (name, path)
    simpa [documentKey, documentRowOf] using hnone

theorem shelf_addDocument (db : Database) (store : String) (d : DocumentRecord) :
    (db.addDocument store d).shelf =
      Function.update db.shelf store ((db.shelf store).addDocument d) := by
  funext name
  by_cases hname : name = store
  · subst hname
    rw [Function.update_self]
    ext1
    · funext path
      by_cases hpath : path = d.path <;>
        simp [shelf, find?_addDocument, Shelf.addDocument, hpath, documentRowOf, DocumentRow.record,
          DocumentRecord.bare]
    · simp only [shelf, chunks_addDocument, Shelf.chunks_addDocument]
  · rw [Function.update_of_ne hname]
    ext1
    · simp [shelf, find?_addDocument, hname]
    · simp only [shelf, chunks_addDocument]

end Database

end CodeIndex
