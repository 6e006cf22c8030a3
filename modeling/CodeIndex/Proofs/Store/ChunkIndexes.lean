import CodeIndex.Proofs.Store.Collection
import CodeIndex.Proofs.Store.History

/-!
# The tables of a collection stay exact

A collection keeps two tables beside its chunks, by document and by path.  Whatever is written,
replaced, moved and removed, each of them has an entry for the keys that some chunk has, the entry
lists exactly the chunks with its key, and no entry is left over without a chunk.

That the entries list the right chunks is part of `Collection.Valid`.  What is added here is that no
entry is empty, which two facts carry: a chunk that is attached is in the entry, and an entry that
loses its last chunk goes away.

## Main definitions

* `ChunkTable.Sorts` is what an exact table is.
* `Collection.Change` is a change of a collection as data, `Collection.made` what changes make of an
  empty one.
* `Collection.Indexed` says that both tables are exact and that chunks stand under their own
  identifiers.

## Main results

* `Collection.made_indexed`: this holds after any changes.
* `MemoryStore.made_after`: the store in memory changes its collections by these changes only.
* `MemoryStore.chunk_indexes_stay_exact`: so it holds of every collection that is ever stored.
-/

namespace CodeIndex

namespace ChunkTable

variable {table : ChunkTable} {field : ChunkRecord → String}
  {chunks : Std.TreeMap String ChunkRecord}

/-- No key has an entry without chunks. -/
def Occupied (table : ChunkTable) : Prop :=
  ∀ (key : String) (ids : Std.TreeSet String), table[key]? = some ids → ids.isEmpty = false

theorem occupied_empty : Occupied ∅ := by
  intro key ids hids
  simp at hids

theorem Occupied.insert (h : table.Occupied) {ids : Std.TreeSet String}
    (hids : ids.isEmpty = false) (key : String) : Occupied (table.insert key ids) := by
  intro key' ids' hids'
  rw [Std.TreeMap.getElem?_insert] at hids'
  split at hids'
  · obtain rfl := Option.some.inj hids'
    exact hids
  · exact h key' ids' hids'

theorem Occupied.attach (h : table.Occupied) (key chunkId : String) :
    (table.attach key chunkId).Occupied :=
  h.insert Std.TreeSet.isEmpty_insert key

/-- The entry that loses its last chunk is taken out. -/
theorem Occupied.detach (h : table.Occupied) (key chunkId : String) :
    (table.detach key chunkId).Occupied := by
  unfold ChunkTable.detach
  cases table[key]? with
  | none => exact h
  | some ids =>
    dsimp only
    split
    · intro key' ids' hids'
      rw [Std.TreeMap.getElem?_erase] at hids'
      split at hids'
      · cases hids'
      · exact h key' ids' hids'
    · next hrest => exact h.insert (Bool.eq_false_iff.2 hrest) key

/-- The table has exactly the keys that the chunks of a map have in one of their fields, each with
exactly the chunks that have it. -/
structure Sorts (table : ChunkTable) (field : ChunkRecord → String)
    (chunks : Std.TreeMap String ChunkRecord) : Prop where
  mem_iff (key : String) (ids : Std.TreeSet String) : table[key]? = some ids →
    ∀ id, id ∈ ids ↔ ∃ chunk, chunks[id]? = some chunk ∧ field chunk = key
  nonempty (key : String) (ids : Std.TreeSet String) : table[key]? = some ids →
    ids.isEmpty = false
  missing (key : String) : table[key]? = none →
    ∀ (id : String) (chunk : ChunkRecord), chunks[id]? = some chunk → field chunk ≠ key

theorem Exact.sorts (h : table.Exact field chunks) (hoccupied : table.Occupied) :
    table.Sorts field chunks where
  mem_iff key ids hids id := by
    rw [← h key id]
    constructor
    · exact fun hmem => ⟨ids, hids, hmem⟩
    · rintro ⟨ids', hids', hmem⟩
      obtain rfl := Option.some.inj (hids.symm.trans hids')
      exact hmem
  nonempty := hoccupied
  missing key hnone id chunk hchunk hfield := by
    obtain ⟨ids, hids, -⟩ := (h key id).2 ⟨chunk, hchunk, hfield⟩
    cases hnone.symm.trans hids

end ChunkTable

namespace Collection

variable {col : Collection}

/-! ## No empty entries -/

/-- Neither table has an entry without chunks. -/
structure Occupied (col : Collection) : Prop where
  byDocument : col.byDocument.Occupied
  byPath : col.byPath.Occupied

theorem occupied_empty : Occupied {} where
  byDocument := ChunkTable.occupied_empty
  byPath := ChunkTable.occupied_empty

theorem Occupied.detachMoved (h : col.Occupied) (previous chunk : ChunkRecord) :
    (col.detachMoved previous chunk).Occupied where
  byDocument := by
    unfold Collection.detachMoved
    dsimp only
    split
    · exact h.byDocument.detach _ _
    · exact h.byDocument
  byPath := by
    unfold Collection.detachMoved
    dsimp only
    split
    · exact h.byPath.detach _ _
    · exact h.byPath

theorem Occupied.addChunk (h : col.Occupied) (chunk : ChunkRecord) :
    (col.addChunk chunk).Occupied := by
  have hinserted : Occupied
      { col with
        chunks := col.chunks.insert chunk.chunkId chunk
        byDocument := col.byDocument.attach chunk.documentId chunk.chunkId
        byPath := col.byPath.attach chunk.path chunk.chunkId } :=
    ⟨h.byDocument.attach _ _, h.byPath.attach _ _⟩
  unfold Collection.addChunk
  split
  · exact hinserted
  · exact hinserted.detachMoved _ _

theorem Occupied.dropChunk (h : col.Occupied) (id : String) : (col.dropChunk id).Occupied := by
  unfold Collection.dropChunk
  split
  · exact h
  · exact ⟨h.byDocument.detach _ _, h.byPath.detach _ _⟩

theorem Occupied.foldl_dropChunk (h : col.Occupied) (ids : List String) :
    (ids.foldl Collection.dropChunk col).Occupied := by
  induction ids generalizing col with
  | nil => exact h
  | cons id rest ih => exact ih (h.dropChunk id)

theorem Occupied.dropDocument (h : col.Occupied) (removed : RemovedDocuments) (path : String) :
    (col.dropDocument removed path).2.Occupied := by
  unfold Collection.dropDocument
  split
  · have herased : Occupied { col with documents := col.documents.erase path } :=
      ⟨h.byDocument, h.byPath⟩
    exact herased.foldl_dropChunk _
  · exact h

/-! ## Changes as data -/

/-- A change of a collection. -/
inductive Change where
  | addDocument (document : DocumentRecord)
  | addChunk (chunk : ChunkRecord)
  | dropChunk (chunkId : String)
  | dropDocument (path : String)
  | clear

/-- Make a change. -/
def apply (col : Collection) : Change → Collection
  | .addDocument document => col.addDocument document
  | .addChunk chunk => col.addChunk chunk
  | .dropChunk chunkId => col.dropChunk chunkId
  | .dropDocument path => (col.dropDocument {} path).2
  | .clear => {}

/-- What changes make of an empty collection. -/
def made (changes : List Change) : Collection := changes.foldl apply {}

theorem Valid.apply (h : col.Valid) (change : Change) : (col.apply change).Valid := by
  cases change with
  | addDocument document => exact h.addDocument document
  | addChunk chunk => exact h.addChunk chunk
  | dropChunk chunkId => exact h.dropChunk chunkId
  | dropDocument path => exact h.dropDocument {} path
  | clear => exact valid_empty

theorem Occupied.apply (h : col.Occupied) (change : Change) : (col.apply change).Occupied := by
  cases change with
  | addDocument document => exact ⟨h.byDocument, h.byPath⟩
  | addChunk chunk => exact h.addChunk chunk
  | dropChunk chunkId => exact h.dropChunk chunkId
  | dropDocument path => exact h.dropDocument {} path
  | clear => exact occupied_empty

/-- Chunks stand under their own identifiers, and the tables sort them by document and by path. -/
structure Indexed (col : Collection) : Prop where
  keyed (id : String) (chunk : ChunkRecord) : col.chunks[id]? = some chunk → chunk.chunkId = id
  byDocument : col.byDocument.Sorts (·.documentId) col.chunks
  byPath : col.byPath.Sorts (·.path) col.chunks

theorem Valid.indexed (h : col.Valid) (hoccupied : col.Occupied) : col.Indexed where
  keyed := h.chunks
  byDocument := h.byDocument.sorts hoccupied.byDocument
  byPath := h.byPath.sorts hoccupied.byPath

/-- Both tables are exact after any changes. -/
theorem made_indexed (changes : List Change) : (made changes).Indexed := by
  suffices h : ∀ col : Collection, col.Valid → col.Occupied →
      (changes.foldl apply col).Valid ∧ (changes.foldl apply col).Occupied by
    obtain ⟨hvalid, hoccupied⟩ := h {} valid_empty occupied_empty
    exact hvalid.indexed hoccupied
  induction changes with
  | nil => exact fun col hvalid hoccupied => ⟨hvalid, hoccupied⟩
  | cons change rest ih =>
    exact fun col hvalid hoccupied => ih _ (hvalid.apply change) (hoccupied.apply change)

/-- What a collection comes to does not depend on what was removed before. -/
theorem snd_dropDocument (col : Collection) (removed : RemovedDocuments) (path : String) :
    (col.dropDocument removed path).2 = col.apply (.dropDocument path) := by
  have happly : col.apply (.dropDocument path) = (col.dropDocument {} path).2 := rfl
  rw [happly]
  unfold dropDocument
  split <;> rfl

theorem snd_dropDocuments (col : Collection) (paths : List String) :
    (col.dropDocuments paths).2 = (paths.map Change.dropDocument).foldl apply col := by
  unfold dropDocuments
  generalize ({} : RemovedDocuments) = removed
  induction paths generalizing col removed with
  | nil => rfl
  | cons path rest ih =>
    rw [List.foldl_cons, ih, List.map_cons, List.foldl_cons, snd_dropDocument]

end Collection

/-! ## The collections of the store -/

namespace MemoryStore

open Collection (made apply)

/-- Every collection of the store is made by changes. -/
def Made (m : MemoryStore) : Prop :=
  ∀ (name : String) (col : Collection), m.stores[name]? = some col → ∃ changes, col = made changes

variable {m : MemoryStore}

theorem Made.insert (h : m.Made) {col : Collection} (hcol : ∃ changes, col = made changes)
    (name : String) : Made { m with stores := m.stores.insert name col } := by
  intro name' col' hcol'
  rw [Std.TreeMap.getElem?_insert] at hcol'
  split at hcol'
  · obtain rfl := Option.some.inj hcol'
    exact hcol
  · exact h name' col' hcol'

/-- A call that changes the contents of a store by changes leaves it made by changes. -/
theorem Made.changing (h : m.Made) {α : Type} (name : String)
    {change : Collection → α × Collection}
    (hchange : ∀ col, ∃ changes : List Collection.Change,
      (change col).2 = changes.foldl apply col) :
    Made (changing name change m).2 := by
  unfold MemoryStore.changing
  cases hcol : m.stores[name]? with
  | none => exact h
  | some col =>
    obtain ⟨before, rfl⟩ := h name col hcol
    obtain ⟨changes, hchanges⟩ := hchange (made before)
    refine h.insert ⟨before ++ changes, ?_⟩ name
    rw [hchanges, made, made, List.foldl_append]

theorem Made.answering {α : Type} {call : StoreCall MemoryStore α} (h : Made (call m).2)
    (answer : α → Answer) : Made (call.answering answer m).2 := by
  rwa [snd_answering]

theorem Made.reading (h : m.Made) {α : Type} (name : String) (read : Collection → α) :
    Made (reading name read m).2 := by
  rwa [snd_reading]

theorem Made.createStore (h : m.Made) (name : String) :
    Made (RecordStore.createStore name m).2 := by
  intro name' col hcol
  simp only [RecordStore.createStore, Std.TreeMap.getElem?_insertIfNew] at hcol
  split at hcol
  · obtain rfl := Option.some.inj hcol
    exact ⟨[], rfl⟩
  · exact h name' col hcol

theorem Made.dropStore (h : m.Made) (name : String) : Made (RecordStore.dropStore name m).2 := by
  intro name' col hcol
  simp only [RecordStore.dropStore, Std.TreeMap.getElem?_erase] at hcol
  split at hcol
  · cases hcol
  · exact h name' col hcol

theorem Made.dropChunks (h : m.Made) (name : String) (ids : List String) :
    Made (RecordStore.dropChunks name ids m).2 := by
  have hchanging : Made (MemoryStore.changing name (·.dropChunks ids) m).2 :=
    h.changing name fun col => ⟨ids.map .dropChunk, by
      rw [List.foldl_map]
      exact col.dropChunks_snd ids⟩
  -- Without identifiers the store is not even looked for.
  cases ids with
  | nil => exact h
  | cons id rest => exact hchanging

/-- Every request changes the collections by changes only. -/
theorem Made.perform (h : m.Made) (request : Request) : Made (perform request m).2 := by
  cases request with
  | createStore name => exact .answering (h.createStore name) _
  | dropStore name => exact .answering (h.dropStore name) _
  | hasStore | allStores => exact .answering h _
  | findDocument | allDocuments | findChunks | stats => exact .answering (h.reading _ _) _
  | putDocument name document =>
    exact .answering (h.changing name fun col => ⟨[.addDocument document], rfl⟩) _
  | putChunks name chunks =>
    refine .answering (h.changing name fun col => ⟨chunks.map .addChunk, ?_⟩) _
    rw [List.foldl_map]
    rfl
  | dropChunks name ids => exact .answering (h.dropChunks name ids) _
  | dropDocuments name paths =>
    exact .answering (h.changing name fun col => ⟨_, col.snd_dropDocuments paths⟩) _
  | dropDocumentsBelow name start =>
    exact .answering
      (h.changing name fun col => ⟨_, col.snd_dropDocuments (col.pathsBelow start)⟩) _
  | clear name => exact .answering (h.changing name fun col => ⟨[.clear], rfl⟩) _

/-- The requests of a history change the collections by these changes only. -/
theorem made_after (requests : List Request) : Made (after requests {}) := by
  suffices h : ∀ m : MemoryStore, m.Made → Made (after requests m) by
    refine h {} fun name col hcol => ?_
    simp at hcol
  induction requests with
  | nil => exact fun m h => h
  | cons request rest ih => exact fun m h => ih _ (h.perform request)

/-- After any changes of a collection both tables are exact: chunks stand under their own
identifiers, each table has exactly the keys that chunks have, and under each key exactly the chunks
that have it.  The same holds of every collection of the store in memory after any history. -/
theorem chunk_indexes_stay_exact :
    (∀ changes, (made changes).Indexed) ∧
    ∀ (requests : List Request) (name : String) (col : Collection),
      (after requests ({} : MemoryStore)).stores[name]? = some col → col.Indexed := by
  refine ⟨Collection.made_indexed, fun requests name col hcol => ?_⟩
  obtain ⟨changes, rfl⟩ := made_after requests name col hcol
  exact Collection.made_indexed changes

/-- A history in which a chunk goes to another document and another path. -/
def reassigned : List Request :=
  let chunk (documentId path : String) : ChunkRecord :=
    { chunkId := "c", documentId, path, language := "text", nodeType := "", startLine := 1,
      endLine := 2, content := "x" }
  [.createStore "s", .putChunks "s" [chunk "d" "a"], .putChunks "s" [chunk "e" "b"]]

theorem chunk_indexes_stay_exact_reassigned :
    ∃ col : Collection, (after reassigned ({} : MemoryStore)).stores["s"]? = some col ∧
      col.Indexed ∧ col.byDocument["d"]? = none := by
  have hleft : ((after reassigned ({} : MemoryStore)).stores["s"]?.map fun col =>
      col.byDocument["d"]?.isNone) = some true := by decide
  obtain ⟨col, hcol, hnone⟩ := Option.map_eq_some_iff.1 hleft
  exact ⟨col, hcol, chunk_indexes_stay_exact.2 reassigned "s" col hcol,
    Option.isNone_iff_eq_none.1 hnone⟩

end MemoryStore

end CodeIndex
