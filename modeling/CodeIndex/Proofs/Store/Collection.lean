import CodeIndex.Proofs.Store.ChunkTable
import CodeIndex.Proofs.Store.Shelf

/-!
# The store in memory keeps shelves

A `Collection` is valid if its documents and chunks stand under their own keys and both of its
tables sort the chunks that are there.  Every change of a collection keeps it valid, and on a valid
collection it is the change of a shelf.  The two tables are what a deletion of documents and the
list of a document's chunks are read from, so these agree with the chunks.

## Main results

* `Collection.Valid` is the invariant; `Collection.shelf_addChunks`, `Collection.shelf_dropChunks`
  and `Collection.shelf_dropDocuments` say what the changes come to.
* `Collection.lists_listed`, `Collection.listsAll_values` and `Collection.counts_stats` say what is
  answered.
* The instance `LawfulStore MemoryStore`.
-/

namespace CodeIndex

namespace Collection

/-- The records stand under their own keys, and the tables sort the chunks by document and by
path. -/
structure Valid (col : Collection) : Prop where
  documents : ∀ path (document : DocumentRecord), col.documents[path]? = some document →
    document.path = path ∧ document.bare = document
  chunks : ∀ id (chunk : ChunkRecord), col.chunks[id]? = some chunk → chunk.chunkId = id
  byDocument : col.byDocument.Exact (·.documentId) col.chunks
  byPath : col.byPath.Exact (·.path) col.chunks

/-- The shelf of a collection. -/
def shelf (col : Collection) : Shelf where
  documents path := col.documents[path]?
  chunks id := col.chunks[id]?.map .plain

theorem valid_empty : Valid {} where
  documents path document h := by simp at h
  chunks id chunk h := by simp at h
  byDocument := ChunkTable.exact_empty _
  byPath := ChunkTable.exact_empty _

theorem Valid.keyed {col : Collection} (h : col.Valid) : col.shelf.Keyed where
  documents path document hdocument := (h.documents path document hdocument).1
  chunks id chunk hchunk := by
    obtain ⟨stored, hstored, rfl⟩ := Option.map_eq_some_iff.1 hchunk
    exact h.chunks id stored hstored

theorem shelf_empty : shelf {} = {} := by
  ext1 <;> funext key <;> simp [shelf]

variable {col : Collection}

/-! ## Writing -/

theorem Valid.addDocument (h : col.Valid) (document : DocumentRecord) :
    (col.addDocument document).Valid where
  documents path stored hstored := by
    simp only [Collection.addDocument, Std.TreeMap.getElem?_insert,
      Std.LawfulEqCmp.compare_eq_iff_eq] at hstored
    split at hstored
    · next hpath =>
      obtain rfl := Option.some.inj hstored
      exact ⟨hpath, rfl⟩
    · exact h.documents path stored hstored
  chunks := h.chunks
  byDocument := h.byDocument
  byPath := h.byPath

theorem shelf_addDocument (col : Collection) (document : DocumentRecord) :
    (col.addDocument document).shelf = col.shelf.addDocument document := by
  ext1
  · funext path
    simp only [shelf, Collection.addDocument, Shelf.addDocument, Std.TreeMap.getElem?_insert,
      Std.LawfulEqCmp.compare_eq_iff_eq, DocumentRecord.bare, @eq_comm _ path]
  · rfl

theorem documents_addChunk (col : Collection) (chunk : ChunkRecord) :
    (col.addChunk chunk).documents = col.documents := by
  unfold addChunk
  split <;> rfl

theorem chunks_addChunk (col : Collection) (chunk : ChunkRecord) :
    (col.addChunk chunk).chunks = col.chunks.insert chunk.chunkId chunk := by
  unfold addChunk
  split <;> rfl

theorem Valid.addChunk (h : col.Valid) (chunk : ChunkRecord) : (col.addChunk chunk).Valid where
  documents := by
    rw [documents_addChunk]
    exact h.documents
  chunks id stored hstored := by
    simp only [chunks_addChunk, Std.TreeMap.getElem?_insert,
      Std.LawfulEqCmp.compare_eq_iff_eq] at hstored
    split at hstored
    · next hid =>
      obtain rfl := Option.some.inj hstored
      exact hid
    · exact h.chunks id stored hstored
  byDocument := by
    rw [chunks_addChunk]
    unfold Collection.addChunk
    split
    · next hnew => exact ChunkTable.exact_attach h.byDocument hnew
    · next previous hprevious =>
      have hid := h.chunks _ _ hprevious
      have hexact := ChunkTable.exact_replace h.byDocument hprevious
      simpa only [detachMoved, hid] using hexact
  byPath := by
    rw [chunks_addChunk]
    unfold Collection.addChunk
    split
    · next hnew => exact ChunkTable.exact_attach h.byPath hnew
    · next previous hprevious =>
      have hid := h.chunks _ _ hprevious
      have hexact := ChunkTable.exact_replace h.byPath hprevious
      simpa only [detachMoved, hid] using hexact

theorem shelf_addChunk (col : Collection) (chunk : ChunkRecord) :
    (col.addChunk chunk).shelf = col.shelf.addChunk chunk := by
  ext1
  · funext path
    simp only [shelf, documents_addChunk, Shelf.documents_addChunk]
  · funext id
    simp only [shelf, chunks_addChunk, Shelf.addChunk, Std.TreeMap.getElem?_insert,
      Std.LawfulEqCmp.compare_eq_iff_eq, @eq_comm _ id]
    split <;> rfl

theorem Valid.addChunks (h : col.Valid) (chunks : List ChunkRecord) :
    (chunks.foldl Collection.addChunk col).Valid := by
  induction chunks generalizing col with
  | nil => exact h
  | cons chunk rest ih => exact ih (h.addChunk chunk)

theorem shelf_addChunks (col : Collection) (chunks : List ChunkRecord) :
    (chunks.foldl Collection.addChunk col).shelf = col.shelf.addChunks chunks := by
  induction chunks generalizing col with
  | nil => rfl
  | cons chunk rest ih =>
    rw [List.foldl_cons, ih, shelf_addChunk]
    rfl

/-! ## Removing chunks -/

theorem documents_dropChunk (col : Collection) (id : String) :
    (col.dropChunk id).documents = col.documents := by
  unfold dropChunk
  split <;> rfl

theorem Valid.dropChunk (h : col.Valid) (id : String) : (col.dropChunk id).Valid := by
  unfold Collection.dropChunk
  split
  · exact h
  · next chunk hchunk =>
    exact {
      documents := h.documents
      chunks := fun id' stored hstored => by
        rw [Std.TreeMap.getElem?_erase] at hstored
        split at hstored
        · simp at hstored
        · exact h.chunks id' stored hstored
      byDocument := ChunkTable.exact_detach h.byDocument hchunk
      byPath := ChunkTable.exact_detach h.byPath hchunk }

theorem shelf_dropChunk (col : Collection) (id : String) :
    (col.dropChunk id).shelf = col.shelf.dropChunks [id] := by
  ext1
  · funext path
    simp only [shelf, documents_dropChunk, Shelf.documents_dropChunks]
  · funext id'
    unfold dropChunk
    split
    · next hnone =>
      by_cases hid : id' = id
      · subst hid
        simp [shelf, Shelf.dropChunks, hnone]
      · simp [shelf, Shelf.dropChunks, hid]
    · by_cases hid : id' = id
      · simp [shelf, Shelf.dropChunks, hid]
      · simp [shelf, Shelf.dropChunks, hid, Std.TreeMap.getElem?_erase,
          Std.LawfulEqCmp.compare_eq_iff_eq, Ne.symm hid]

theorem Valid.foldl_dropChunk (h : col.Valid) (ids : List String) :
    (ids.foldl Collection.dropChunk col).Valid := by
  induction ids generalizing col with
  | nil => exact h
  | cons id rest ih => exact ih (h.dropChunk id)

theorem shelf_foldl_dropChunk (col : Collection) (ids : List String) :
    (ids.foldl dropChunk col).shelf = col.shelf.dropChunks ids := by
  induction ids generalizing col with
  | nil => simp [Shelf.dropChunks]
  | cons id rest ih =>
    rw [List.foldl_cons, ih, shelf_dropChunk]
    ext1
    · rfl
    · funext id'
      by_cases hid : id' = id <;> simp [Shelf.dropChunks, hid]

theorem dropChunks_snd (col : Collection) (ids : List String) :
    (col.dropChunks ids).2 = ids.foldl dropChunk col := by
  unfold dropChunks
  generalize 0 = count
  induction ids generalizing col count with
  | nil => rfl
  | cons id rest ih => rw [List.foldl_cons, ih, List.foldl_cons]

/-! ## Removing documents -/

theorem Valid.dropDocument (h : col.Valid) (removed : RemovedDocuments) (path : String) :
    (col.dropDocument removed path).2.Valid := by
  unfold Collection.dropDocument
  split
  · have herased : Valid { col with documents := col.documents.erase path } := by
      refine { h with documents := fun path' stored hstored => ?_ }
      rw [Std.TreeMap.getElem?_erase] at hstored
      split at hstored
      · simp at hstored
      · exact h.documents path' stored hstored
    exact herased.foldl_dropChunk (col.byPath.idsOf path)
  · exact h

/-- The chunks that a deletion removes are those at the path. -/
theorem shelf_dropDocument (h : col.Valid) (removed : RemovedDocuments) (path : String) :
    (col.dropDocument removed path).2.shelf = col.shelf.dropWhere (· == path) := by
  unfold dropDocument
  split
  · next hpath =>
    rw [Std.TreeMap.contains_iff_mem] at hpath
    rw [shelf_foldl_dropChunk]
    ext1
    · funext path'
      by_cases hpath' : path' = path
      · simp [Shelf.dropChunks, Shelf.dropWhere, shelf, hpath']
      · simp [Shelf.dropChunks, Shelf.dropWhere, shelf, hpath', Std.TreeMap.getElem?_erase,
          Std.LawfulEqCmp.compare_eq_iff_eq, Ne.symm hpath']
    · funext id
      have hids : id ∈ col.byPath.idsOf path ↔
          ∃ chunk, col.chunks[id]? = some chunk ∧ chunk.path = path :=
        ChunkTable.mem_idsOf.trans (h.byPath path id)
      cases hchunk : col.chunks[id]? with
      | none => simp [Shelf.dropChunks, Shelf.dropWhere, shelf, hchunk]
      | some chunk =>
        rw [hchunk] at hids
        by_cases hat : chunk.path = path
        · simp [Shelf.dropChunks, Shelf.dropWhere, shelf, hchunk, hids, hat, hpath,
            Option.filter_some]
        · simp [Shelf.dropChunks, Shelf.dropWhere, shelf, hchunk, hids, hat, Option.filter_some]
  · next hpath =>
    rw [Std.TreeMap.contains_iff_mem] at hpath
    ext1
    · funext path'
      by_cases hpath' : path' = path
      · subst hpath'
        simpa [Shelf.dropWhere, shelf] using hpath
      · simp [Shelf.dropWhere, shelf, hpath']
    · funext id
      cases hchunk : col.chunks[id]? with
      | none => simp [Shelf.dropWhere, shelf, hchunk]
      | some chunk =>
        by_cases hat : chunk.path = path
        · subst hat
          simpa [Shelf.dropWhere, shelf, hchunk, Option.filter_some] using hpath
        · simp [Shelf.dropWhere, shelf, hchunk, hat, Option.filter_some]

/-- Among the paths that have a document those that start with the text are listed. -/
theorem contains_pathsBelow (col : Collection) (start : String) {path : String}
    (hpath : (col.shelf.documents path).isSome) :
    (col.pathsBelow start).contains path = start.toList.isPrefixOf path.toList := by
  have hmem : path ∈ col.documents := by simpa [shelf] using hpath
  rw [Bool.eq_iff_iff]
  simp [pathsBelow, hmem]

theorem Valid.dropDocuments (h : col.Valid) (paths : List String) :
    (col.dropDocuments paths).2.Valid := by
  unfold Collection.dropDocuments
  generalize ({} : RemovedDocuments) = removed
  induction paths generalizing col removed with
  | nil => exact h
  | cons path rest ih => exact ih (h.dropDocument removed path) _

theorem shelf_dropDocuments (h : col.Valid) (paths : List String) :
    (col.dropDocuments paths).2.shelf = col.shelf.dropDocuments paths := by
  unfold dropDocuments Shelf.dropDocuments
  generalize ({} : RemovedDocuments) = removed
  induction paths generalizing col removed with
  | nil => exact col.shelf.dropWhere_false.symm
  | cons path rest ih =>
    have hstep := ih (h.dropDocument removed path) (col.dropDocument removed path).1
    rw [shelf_dropDocument h, Shelf.dropWhere_or] at hstep
    rw [List.foldl_cons, hstep]
    congr

/-! ## Answers -/

theorem lists_listed (h : col.Valid) {path : String} {document : DocumentRecord}
    (hdocument : col.documents[path]? = some document) :
    col.shelf.Lists document (col.listed document) where
  bare := (h.documents path document hdocument).2
  ascending := ChunkTable.ascending_idsOf _ _
  mem_iff id := by
    refine (ChunkTable.mem_idsOf.trans (h.byDocument document.documentId id)).trans ?_
    cases hchunk : col.chunks[id]? <;> simp [shelf, hchunk]

theorem listsAll_values (h : col.Valid) :
    col.shelf.ListsAll (col.documents.values.map col.listed) := by
  have hown : ∀ entry ∈ col.documents.toList, entry.2.path = entry.1 := fun entry hentry =>
    (h.documents _ _ (Std.TreeMap.mem_toList_iff_getElem?_eq_some.1 hentry)).1
  rw [values_eq_map_toList, List.map_map]
  constructor
  · refine List.Pairwise.map _ ?_
      (Std.TreeMap.ordered_keys_toList.imp_of_mem (S := fun a b => a.2.path < b.2.path) ?_)
    · exact fun _ _ hlt => hlt
    · intro a b ha hb hlt
      rw [hown a ha, hown b hb]
      exact compare_eq_lt_iff_lt.1 hlt
  · intro answered
    constructor
    · intro hmem
      obtain ⟨⟨path, document⟩, hentry, rfl⟩ := List.mem_map.1 hmem
      have hpath : document.path = path := hown _ hentry
      have hdocument := Std.TreeMap.mem_toList_iff_getElem?_eq_some.1 hentry
      refine ⟨document, ?_, lists_listed h hdocument⟩
      simpa [shelf, listed, hpath] using hdocument
    · rintro ⟨document, hdocument, hlists⟩
      obtain rfl := hlists.unique (lists_listed h hdocument)
      exact List.mem_map.2
        ⟨(_, document), Std.TreeMap.mem_toList_iff_getElem?_eq_some.2 hdocument, rfl⟩

theorem counts_stats (h : col.Valid) (name : String) :
    col.shelf.Counts name (col.stats name) where
  store := rfl
  documents := by
    refine ⟨_, listsAll_values h, ?_, ?_⟩
    · simp [stats, values_eq_map_toList]
    · simp [stats, listed, Function.comp_def]
  chunks := by
    refine ⟨col.chunks.keys, Std.TreeMap.nodup_keys, fun id => ?_, ?_⟩
    · simp [shelf, Std.TreeMap.mem_keys]
    · simp [stats]

end Collection

namespace MemoryStore

/-- Every collection of the store is valid. -/
def Valid (m : MemoryStore) : Prop :=
  ∀ (name : String) (col : Collection), m.stores[name]? = some col → col.Valid

theorem valid_empty : Valid {} := by
  intro name col h
  simp at h

variable {m : MemoryStore}

theorem held_eq (h : m.Valid) (name : String) : held m name = m.stores[name]?.map (·.shelf) := by
  have hhas : (RecordStore.hasStore name m).1 = .ok (m.stores.contains name) := rfl
  rw [held, hhas, Std.TreeMap.contains_eq_isSome_getElem?]
  cases hcol : m.stores[name]? with
  | none => rfl
  | some col =>
    have hvalid := h name col hcol
    refine congrArg some ?_
    ext1
    · funext path
      simp only [documentAt, RecordStore.findDocument, reading, hcol, Collection.shelf]
      cases hdocument : col.documents[path]? with
      | none => rfl
      | some document => exact congrArg some (hvalid.documents path document hdocument).2
    · funext id
      simp only [chunkAt, RecordStore.findChunks, reading, hcol, Collection.shelf]
      cases hchunk : col.chunks[id]? <;> simp [hchunk]

theorem Valid.insert (h : m.Valid) {name : String} {col : Collection} (hcol : col.Valid) :
    Valid { m with stores := m.stores.insert name col } := by
  intro name' col' h'
  rw [Std.TreeMap.getElem?_insert] at h'
  split at h'
  · obtain rfl := Option.some.inj h'
    exact hcol
  · exact h name' col' h'

theorem held_insert (h : m.Valid) {name : String} {col : Collection} (hcol : col.Valid) :
    held { m with stores := m.stores.insert name col } =
      Function.update (held m) name (some col.shelf) := by
  funext name'
  rw [held_eq (h.insert hcol), Std.TreeMap.getElem?_insert]
  by_cases hname : name = name'
  · subst hname
    simp
  · simp [Std.LawfulEqCmp.compare_eq_iff_eq, hname, Function.update_of_ne (Ne.symm hname),
      held_eq h]

theorem snd_reading {α : Type} (store : String) (read : Collection → α) (m : MemoryStore) :
    (reading store read m).2 = m := by
  unfold reading
  split <;> rfl

theorem reads_reading {α : Type} {name : String} {read : Collection → α}
    {answers : Shelf → α → Prop}
    (h : ∀ col : Collection, col.Valid → answers col.shelf (read col)) :
    Reads Valid name (reading name read) answers := by
  intro m hm
  rw [held_eq hm]
  unfold reading
  cases hcol : m.stores[name]? with
  | none => exact ⟨rfl, rfl⟩
  | some col => exact ⟨rfl, _, rfl, h col (hm name col hcol)⟩

theorem changes_changing {α : Type} {name : String} {change : Collection → α × Collection}
    {shelved : Shelf → Shelf} (able : Prop)
    (hvalid : ∀ col : Collection, col.Valid → (change col).2.Valid)
    (hshelf : ∀ col : Collection, col.Valid → (change col).2.shelf = shelved col.shelf) :
    Changes Valid name (changing name change) shelved able where
  valid m hm := by
    unfold changing
    cases hcol : m.stores[name]? with
    | none => exact hm
    | some col => exact hm.insert (hvalid col (hm name col hcol))
  missing m hm hnone := by
    rw [held_eq hm, Option.map_eq_none_iff] at hnone
    simp only [changing, hnone]
  refused m e hm hfails := by
    unfold changing at hfails ⊢
    cases hcol : m.stores[name]? with
    | none => rfl
    | some col => simp [hcol] at hfails
  succeeds m shelf hm hheld _ := by
    rw [held_eq hm] at hheld
    obtain ⟨col, hcol, -⟩ := Option.map_eq_some_iff.1 hheld
    exact ⟨(change col).1, by simp only [changing, hcol]⟩
  taken m shelf a hm hheld _ := by
    rw [held_eq hm] at hheld
    obtain ⟨col, hcol, rfl⟩ := Option.map_eq_some_iff.1 hheld
    have hcolValid := hm name col hcol
    simp only [changing, hcol]
    rw [held_insert hm (hvalid col hcolValid), hshelf col hcolValid]

theorem createStore_law (name : String) (h : m.Valid) :
    Valid (RecordStore.createStore name m).2 ∧
      held (RecordStore.createStore name m).2 =
        Function.update (held m) name (some ((held m name).getD {})) := by
  have hvalid : Valid (RecordStore.createStore name m).2 := by
    intro name' col hcol
    simp only [RecordStore.createStore, Std.TreeMap.getElem?_insertIfNew] at hcol
    split at hcol
    · obtain rfl := Option.some.inj hcol
      exact Collection.valid_empty
    · exact h name' col hcol
  refine ⟨hvalid, ?_⟩
  funext name'
  rw [held_eq hvalid]
  simp only [RecordStore.createStore, Std.TreeMap.getElem?_insertIfNew,
    Std.LawfulEqCmp.compare_eq_iff_eq]
  by_cases hname : name = name'
  · subst hname
    rw [Function.update_self, held_eq h]
    cases hcol : m.stores[name]? with
    | none => simp [← Std.TreeMap.isSome_getElem?_iff_mem, hcol, Collection.shelf_empty]
    | some col => simp [← Std.TreeMap.isSome_getElem?_iff_mem, hcol]
  · simp [hname, Function.update_of_ne (Ne.symm hname), held_eq h]

theorem dropStore_law (name : String) (h : m.Valid) :
    Valid (RecordStore.dropStore name m).2 ∧
      held (RecordStore.dropStore name m).2 = Function.update (held m) name none := by
  have hvalid : Valid (RecordStore.dropStore name m).2 := by
    intro name' col hcol
    simp only [RecordStore.dropStore, Std.TreeMap.getElem?_erase] at hcol
    split at hcol
    · simp at hcol
    · exact h name' col hcol
  refine ⟨hvalid, ?_⟩
  funext name'
  rw [held_eq hvalid]
  simp only [RecordStore.dropStore, Std.TreeMap.getElem?_erase, Std.LawfulEqCmp.compare_eq_iff_eq]
  by_cases hname : name = name'
  · subst hname
    simp
  · simp [hname, Function.update_of_ne (Ne.symm hname), held_eq h]

instance : LawfulStore MemoryStore where
  Valid := Valid
  startsWith start path := start.toList.isPrefixOf path.toList
  Fits _ := True
  keyed name m shelf hm hheld := by
    rw [held_eq hm, Option.map_eq_some_iff] at hheld
    obtain ⟨col, hcol, rfl⟩ := hheld
    exact (hm name col hcol).keyed
  hasStore name m _ := ⟨_, rfl⟩
  allStores m hm := by
    refine ⟨m.stores.keys, rfl, ?_, fun name => ?_⟩
    · exact Std.TreeMap.ordered_keys.imp compare_eq_lt_iff_lt.1
    · simp [held_eq hm, Std.TreeMap.mem_keys]
  createStore name m hm := by
    obtain ⟨hvalid, hheld⟩ := createStore_law name hm
    exact ⟨hvalid, rfl, hheld⟩
  dropStore name m hm := by
    obtain ⟨hvalid, hheld⟩ := dropStore_law name hm
    exact ⟨hvalid, rfl, hheld⟩
  findDocument name path := reads_reading fun col hcol => by
    cases hdocument : col.documents[path]? with
    | none => simp [Collection.shelf, hdocument]
    | some document =>
      simpa [Collection.shelf, hdocument] using Collection.lists_listed hcol hdocument
  allDocuments name := reads_reading fun col hcol => Collection.listsAll_values hcol
  findChunks name ids := reads_reading fun col _ => by
    simp [Collection.shelf, List.map_filterMap]
  stats name := reads_reading fun col hcol => Collection.counts_stats hcol name
  putDocument name document := changes_changing _ (fun _ h => h.addDocument document)
    fun col _ => col.shelf_addDocument document
  putChunks name chunks := changes_changing _ (fun _ h => h.addChunks chunks)
    fun col _ => col.shelf_addChunks chunks
  dropChunks name ids := by
    have hchanging :
        Changes Valid name (changing name (·.dropChunks ids)) (·.dropChunks ids) True :=
      changes_changing True
        (fun col h => by rw [col.dropChunks_snd]; exact h.foldl_dropChunk ids)
        fun col _ => by rw [col.dropChunks_snd, col.shelf_foldl_dropChunk]
    cases ids with
    | nil =>
      -- The call answers without looking for the store.
      exact {
        valid := fun m hm => hm
        missing := fun m _ _ => rfl
        refused := fun m e _ _ => rfl
        succeeds := fun m shelf _ _ _ => ⟨0, rfl⟩
        taken := fun m shelf a _ hheld _ => by
          rw [Shelf.dropChunks_nil, ← hheld, Function.update_eq_self]
          rfl }
    | cons id rest => exact hchanging
  dropDocuments name paths := changes_changing _ (fun _ h => h.dropDocuments paths)
    fun _ h => Collection.shelf_dropDocuments h paths
  dropDocumentsBelow name start := changes_changing _ (fun _ h => h.dropDocuments _) fun col h => by
    rw [Collection.shelf_dropDocuments h]
    exact Shelf.dropWhere_congr fun path hpath => col.contains_pathsBelow start hpath
  clear name := changes_changing _ (fun _ _ => Collection.valid_empty)
    fun _ _ => Collection.shelf_empty

end MemoryStore

end CodeIndex
