import CodeIndex.Proofs.Store.Tables

/-!
# The database keeps shelves

Every call on the database is a call on shelves.  The deletions go through one relation,
`Database.Drops`: whatever order they remove rows in, they remove the rows of a store that have some
property, and the shelf after them follows from the property alone.

## Main results

* `Database.drops_dropChunks`, `Database.drops_dropPaths` and `Database.drops_emptied`: which rows
  the deletions remove.
* `Database.lists_documentOf`, `Database.listsAll_documentRows` and `Database.counts_statsOf`: what
  is answered.
* The instance `LawfulStore Database`.
-/

namespace CodeIndex.Database

variable {db after : Database}

/-! ## Removing rows -/

/-- The second database lacks those rows of a store whose path, in the table of documents, or whose
chunk has a property. -/
structure Drops (db after : Database) (store : String) (document : String → Bool)
    (chunk : ChunkRecord → Bool) : Prop where
  stores : after.stores = db.stores
  documents : after.documents = db.documents.filter fun r => !(r.store == store && document r.path)
  chunks : after.chunks = db.chunks.filter fun r => !(r.store == store && chunk r.chunk)

theorem drops_refl (db : Database) (store : String) :
    Drops db db store (fun _ => false) fun _ => false where
  stores := rfl
  documents := by simp
  chunks := by simp

theorem Drops.trans {last : Database} {store : String} {document document' : String → Bool}
    {chunk chunk' : ChunkRecord → Bool} (h : Drops db after store document chunk)
    (h' : Drops after last store document' chunk') :
    Drops db last store (fun path => document path || document' path)
      fun c => chunk c || chunk' c where
  stores := h'.stores.trans h.stores
  documents := by
    rw [h'.documents, h.documents, List.filter_filter]
    refine List.filter_congr fun r _ => ?_
    rw [Bool.and_or_distrib_left, Bool.not_or, Bool.and_comm]
  chunks := by
    rw [h'.chunks, h.chunks, List.filter_filter]
    refine List.filter_congr fun r _ => ?_
    rw [Bool.and_or_distrib_left, Bool.not_or, Bool.and_comm]

/-- The invariant survives the loss of rows. -/
theorem Valid.of_sublist (h : db.Valid) (hstores : after.stores = db.stores)
    (hdocuments : after.documents.Sublist db.documents)
    (hchunks : after.chunks.Sublist db.chunks) : after.Valid where
  stores := by rw [hstores]; exact h.stores
  documentKeys := h.documentKeys.sublist (hdocuments.map _)
  chunkKeys := h.chunkKeys.sublist (hchunks.map _)
  rows := h.rows.sublist (hchunks.map _)
  documentStores r hr := by
    rw [hstores]
    exact h.documentStores r (hdocuments.subset hr)
  chunkStores r hr := by
    rw [hstores]
    exact h.chunkStores r (hchunks.subset hr)
  readable r hr := h.readable r (hchunks.subset hr)

theorem Valid.drops (h : db.Valid) {store : String} {document : String → Bool}
    {chunk : ChunkRecord → Bool} (hdrops : Drops db after store document chunk) : after.Valid := by
  refine h.of_sublist hdrops.stores ?_ ?_
  · rw [hdrops.documents]
    exact List.filter_sublist
  · rw [hdrops.chunks]
    exact List.filter_sublist

/-- The rows that are left are found as before, the others no longer. -/
theorem Drops.shelf {store : String} {document : String → Bool} {chunk : ChunkRecord → Bool}
    (hdrops : Drops db after store document chunk) (h : db.Valid) :
    after.shelf = Function.update db.shelf store
      { documents := fun path =>
          if document path then none else (db.shelf store).documents path
        chunks := fun id => ((db.shelf store).chunks id).filter fun c => !chunk c } := by
  funext name
  have hdocuments : ∀ path, (after.shelf name).documents path =
      ((db.documents.find? (isDocument name path)).filter
        fun r => !(r.store == store && document r.path)).map DocumentRow.record := fun path => by
    rw [documents_shelf_eq, hdrops.documents, find?_filter_of_unique (h.document_unique name path)]
  have hchunks : ∀ id, (after.shelf name).chunks id =
      ((db.chunks.find? (isChunk name id)).filter
        fun r => !(r.store == store && chunk r.chunk)).map ChunkRow.chunk := fun id => by
    rw [chunks_shelf_eq, hdrops.chunks, find?_filter_of_unique (h.chunk_unique name id)]
  by_cases hname : name = store
  · subst hname
    rw [Function.update_self]
    ext1
    · funext path
      rw [hdocuments]
      cases hfind : db.documents.find? (isDocument name path) with
      | none => simp [documents_shelf_eq, hfind]
      | some r =>
        obtain ⟨hstore, hpath⟩ := isDocument_iff.1 (List.find?_some hfind)
        cases hdrop : document path <;>
          simp [documents_shelf_eq, hfind, Option.filter_some, hstore, hpath, hdrop]
    · funext id
      rw [hchunks]
      cases hfind : db.chunks.find? (isChunk name id) with
      | none => simp [chunks_shelf_eq, hfind]
      | some r =>
        obtain ⟨hstore, -⟩ := isChunk_iff.1 (List.find?_some hfind)
        cases hdrop : chunk r.chunk <;>
          simp [chunks_shelf_eq, hfind, Option.filter_some, hstore, hdrop]
  · rw [Function.update_of_ne hname]
    ext1
    · funext path
      rw [hdocuments, documents_shelf_eq]
      cases hfind : db.documents.find? (isDocument name path) with
      | none => rfl
      | some r =>
        obtain ⟨hstore, -⟩ := isDocument_iff.1 (List.find?_some hfind)
        simp [Option.filter_some, hstore, hname]
    · funext id
      rw [hchunks, chunks_shelf_eq]
      cases hfind : db.chunks.find? (isChunk name id) with
      | none => rfl
      | some r =>
        obtain ⟨hstore, -⟩ := isChunk_iff.1 (List.find?_some hfind)
        simp [Option.filter_some, hstore, hname]

theorem drops_dropChunks (db : Database) (store : String) (ids : List String) :
    Drops db (db.dropChunks store ids).2 store (fun _ => false)
      fun c => ids.contains c.chunkId := by
  unfold dropChunks
  generalize 0 = count
  induction ids generalizing db count with
  | nil => exact drops_refl db store
  | cons id rest ih =>
    have hrow : Drops db (db.dropChunkRows (isChunk store id)) store (fun _ => false)
        fun c => c.chunkId == id := {
      stores := rfl
      documents := by simp [dropChunkRows]
      chunks := rfl }
    have hstep := hrow.trans (ih (db.dropChunkRows (isChunk store id))
      (count + (db.chunks.filter (isChunk store id)).length))
    have hcontains : (fun c : ChunkRecord => (id :: rest).contains c.chunkId) =
        fun c => c.chunkId == id || rest.contains c.chunkId := by
      simp only [List.contains_cons]
    rw [hcontains]
    exact hstep

theorem drops_foldl_dropPath (db : Database) (store : String) (paths : List String) :
    Drops db (paths.foldl (fun db path =>
        (db.dropChunkRows fun c => c.store == store && c.path == path).dropDocumentRows
          (isDocument store path)) db)
      store paths.contains fun c => paths.contains c.path := by
  induction paths generalizing db with
  | nil => exact drops_refl db store
  | cons path rest ih =>
    have hrow : Drops db
        ((db.dropChunkRows fun c => c.store == store && c.path == path).dropDocumentRows
          (isDocument store path)) store (fun path' => path' == path) fun c => c.path == path := {
      stores := rfl
      documents := rfl
      chunks := rfl }
    have hcontains :
        (path :: rest).contains = fun path' => path' == path || rest.contains path' := by
      funext path'
      rw [List.contains_cons]
    rw [hcontains]
    exact hrow.trans (ih _)

/-- A deletion removes the paths that have a document, and lists their chunks path by path. -/
theorem removalsOf_eq (db : Database) (store : String) (paths : List String) :
    db.removalsOf store paths =
      { paths := paths.filter fun path => db.documents.any (isDocument store path)
        chunkIds := (paths.filter fun path => db.documents.any (isDocument store path)).flatMap
          fun path => db.chunkIdsWhere fun c => c.store == store && c.path == path } := by
  unfold removalsOf
  suffices h : ∀ removed : RemovedDocuments, paths.foldl (fun removed path =>
      if db.documents.any (isDocument store path) then
        ⟨removed.paths ++ [path],
          removed.chunkIds ++ db.chunkIdsWhere fun c => c.store == store && c.path == path⟩
      else removed) removed =
        ⟨removed.paths ++ paths.filter fun path => db.documents.any (isDocument store path),
          removed.chunkIds ++ (paths.filter fun path =>
            db.documents.any (isDocument store path)).flatMap fun path =>
              db.chunkIdsWhere fun c => c.store == store && c.path == path⟩ by
    simpa using h {}
  induction paths with
  | nil => simp
  | cons path rest ih =>
    intro removed
    rw [List.foldl_cons, ih, List.filter_cons]
    split <;> simp

theorem paths_removalsOf (db : Database) (store : String) (paths : List String) :
    (db.removalsOf store paths).paths =
      paths.filter fun path => db.documents.any (isDocument store path) := by
  rw [removalsOf_eq]

theorem drops_dropPaths (db : Database) (store : String) (paths : List String) :
    Drops db (db.dropPaths store paths).2 store (db.removalsOf store paths).paths.contains
      fun c => (db.removalsOf store paths).paths.contains c.path :=
  drops_foldl_dropPath db store (db.removalsOf store paths).paths

theorem drops_emptied (db : Database) (store : String) :
    Drops db (db.emptied store) store (fun _ => true) fun _ => true where
  stores := rfl
  documents := by simp [emptied, dropChunkRows, dropDocumentRows]
  chunks := by simp [emptied, dropChunkRows, dropDocumentRows]

/-! ## Removals on shelves -/

theorem Valid.chunkId_of_shelf (h : db.Valid) {store id : String} {chunk : ChunkRecord}
    (hchunk : (db.shelf store).chunks id = some chunk) : chunk.chunkId = id := by
  obtain ⟨r, -, -, hid, rfl⟩ := h.chunks_shelf.1 hchunk
  exact hid

theorem shelf_dropChunks (h : db.Valid) (store : String) (ids : List String) :
    (db.dropChunks store ids).2.shelf =
      Function.update db.shelf store ((db.shelf store).dropChunks ids) := by
  rw [(drops_dropChunks db store ids).shelf h]
  congr 1
  ext1
  · rfl
  · funext id
    cases hchunk : (db.shelf store).chunks id with
    | none => simp [Shelf.dropChunks, hchunk]
    | some chunk =>
      have hid := h.chunkId_of_shelf hchunk
      by_cases hmem : id ∈ ids <;>
        simp [Shelf.dropChunks, hchunk, Option.filter_some, hid, hmem]

theorem any_isDocument (db : Database) (store path : String) :
    db.documents.any (isDocument store path) = ((db.shelf store).documents path).isSome := by
  simp only [shelf, Option.isSome_map, List.isSome_find?]

theorem shelf_dropPaths (h : db.Valid) (store : String) (paths : List String) :
    (db.dropPaths store paths).2.shelf =
      Function.update db.shelf store ((db.shelf store).dropDocuments paths) := by
  have hremoved : ∀ path, (db.removalsOf store paths).paths.contains path =
      (paths.contains path && ((db.shelf store).documents path).isSome) := by
    intro path
    rw [paths_removalsOf, Bool.eq_iff_iff]
    simp [any_isDocument]
  rw [(drops_dropPaths db store paths).shelf h]
  congr 1
  ext1
  · funext path
    cases hdocument : (db.shelf store).documents path with
    | none => simp [Shelf.dropDocuments, Shelf.dropWhere, hdocument]
    | some document =>
      simp only [hremoved, Shelf.dropDocuments, Shelf.dropWhere, hdocument, Option.isSome_some,
        Bool.and_true]
  · funext id
    simp only [hremoved]
    rfl

theorem shelf_emptied (h : db.Valid) (store : String) :
    (db.emptied store).shelf = Function.update db.shelf store {} := by
  rw [(drops_emptied db store).shelf h]
  congr 1
  ext1
  · rfl
  · funext id
    cases hchunk : (db.shelf store).chunks id <;> simp [hchunk, Option.filter_some]

/-! ## Answers -/

/-- Within a store an identifier is used once. -/
theorem Valid.nodup_chunkIds (h : db.Valid) (store : String) {p : ChunkRow → Bool}
    (hp : ∀ r, p r = true → r.store = store) : ((db.chunks.filter p).map (·.chunkId)).Nodup := by
  have hkeys : ((db.chunks.filter p).map chunkKey).Nodup :=
    h.chunkKeys.sublist (List.filter_sublist.map _)
  have hmap : (db.chunks.filter p).map chunkKey =
      ((db.chunks.filter p).map (·.chunkId)).map fun id => (store, id) := by
    rw [List.map_map]
    refine List.map_congr_left fun r hr => ?_
    exact Prod.ext (hp r (List.mem_filter.1 hr).2) rfl
  rw [hmap] at hkeys
  exact hkeys.of_map _

/-- Within a store a path is used once. -/
theorem Valid.nodup_paths (h : db.Valid) (store : String) :
    ((db.documents.filter (·.store == store)).map (·.path)).Nodup := by
  have hkeys : ((db.documents.filter (·.store == store)).map documentKey).Nodup :=
    h.documentKeys.sublist (List.filter_sublist.map _)
  have hmap : (db.documents.filter (·.store == store)).map documentKey =
      ((db.documents.filter (·.store == store)).map (·.path)).map fun path => (store, path) := by
    rw [List.map_map]
    refine List.map_congr_left fun r hr => ?_
    exact Prod.ext (eq_of_beq (List.mem_filter.1 hr).2) rfl
  rw [hmap] at hkeys
  exact hkeys.of_map _

theorem mem_documentRows {store : String} {r : DocumentRow} :
    r ∈ db.documentRows store ↔ r ∈ db.documents ∧ r.store = store := by
  simp [documentRows]

theorem mem_pathsBelow (h : db.Valid) {store start path : String} :
    path ∈ db.pathsBelow store start ↔
      ((db.shelf store).documents path).isSome ∧ startsWith start path := by
  rw [pathsBelow, List.mem_map, Option.isSome_iff_exists]
  simp only [List.mem_filter, mem_documentRows, h.documents_shelf]
  constructor
  · rintro ⟨r, ⟨⟨hr, hstore⟩, hstarts⟩, rfl⟩
    exact ⟨⟨r.record, r, hr, hstore, rfl, rfl⟩, hstarts⟩
  · rintro ⟨⟨_, r, hr, hstore, rfl, -⟩, hstarts⟩
    exact ⟨r, ⟨⟨hr, hstore⟩, hstarts⟩, rfl⟩

/-- The identifiers of the chunks of a store that have a property. -/
theorem mem_chunkIdsWhere (h : db.Valid) {store id : String} (p : ChunkRecord → Bool) :
    id ∈ db.chunkIdsWhere (fun c => c.store == store && p c.chunk) ↔
      ∃ chunk, (db.shelf store).chunks id = some chunk ∧ p chunk := by
  rw [chunkIdsWhere, mem_sortTexts]
  constructor
  · intro hmem
    obtain ⟨c, hc, rfl⟩ := List.mem_map.1 hmem
    simp only [List.mem_filter, Bool.and_eq_true, beq_iff_eq] at hc
    exact ⟨c.chunk, h.chunks_shelf.2 ⟨c, hc.1, hc.2.1, rfl, rfl⟩, hc.2.2⟩
  · rintro ⟨chunk, hchunk, hp⟩
    obtain ⟨c, hc, hstore, rfl, rfl⟩ := h.chunks_shelf.1 hchunk
    refine List.mem_map.2 ⟨c, List.mem_filter.2 ⟨hc, ?_⟩, rfl⟩
    rw [hstore, beq_self_eq_true, Bool.true_and, hp]

theorem ascending_chunkIdsWhere (h : db.Valid) (store : String) (p : ChunkRow → Bool) :
    (db.chunkIdsWhere fun c => c.store == store && p c).Pairwise (· < ·) :=
  pairwise_sortTexts (h.nodup_chunkIds store fun _ hc => eq_of_beq (Bool.and_eq_true_iff.1 hc).1)

theorem lists_documentOf (h : db.Valid) (r : DocumentRow) :
    (db.shelf r.store).Lists r.record (db.documentOf r) where
  bare := rfl
  ascending := ascending_chunkIdsWhere h r.store fun c => c.documentId == r.documentId
  mem_iff id := by
    refine (mem_chunkIdsWhere h fun chunk => chunk.documentId == r.documentId).trans ?_
    simp only [beq_iff_eq]
    rfl

theorem listsAll_documentRows (h : db.Valid) (store : String) :
    (db.shelf store).ListsAll ((db.documentRows store).map db.documentOf) := by
  constructor
  · exact (pairwise_lt_mergeSort DocumentRow.path (h.nodup_paths store)).map _ fun _ _ hlt => hlt
  · intro answered
    constructor
    · intro hmem
      obtain ⟨r, hr, rfl⟩ := List.mem_map.1 hmem
      obtain ⟨hrow, rfl⟩ := mem_documentRows.1 hr
      exact ⟨r.record, h.documents_shelf.2 ⟨r, hrow, rfl, rfl, rfl⟩, lists_documentOf h r⟩
    · rintro ⟨stored, hstored, hlists⟩
      obtain ⟨r, hr, rfl, -, rfl⟩ := h.documents_shelf.1 hstored
      obtain rfl := hlists.unique (lists_documentOf h r)
      exact List.mem_map.2 ⟨r, mem_documentRows.2 ⟨hr, rfl⟩, rfl⟩

theorem counts_statsOf (h : db.Valid) (store : String) :
    (db.shelf store).Counts store (db.statsOf store) where
  store := rfl
  documents := by
    refine ⟨_, listsAll_documentRows h store, ?_, ?_⟩
    · simp [statsOf]
    · simp [statsOf, documentOf, Function.comp_def]
  chunks := by
    refine ⟨(db.chunks.filter (·.store == store)).map (·.chunkId),
      h.nodup_chunkIds store fun r hr => eq_of_beq hr, fun id => ?_, by simp [statsOf]⟩
    rw [Option.isSome_iff_exists]
    constructor
    · intro hmem
      obtain ⟨r, hr, rfl⟩ := List.mem_map.1 hmem
      simp only [List.mem_filter, beq_iff_eq] at hr
      exact ⟨r.chunk, h.chunks_shelf.2 ⟨r, hr.1, hr.2, rfl, rfl⟩⟩
    · rintro ⟨chunk, hchunk⟩
      obtain ⟨r, hr, hstore, rfl, -⟩ := h.chunks_shelf.1 hchunk
      exact List.mem_map.2 ⟨r, List.mem_filter.2 ⟨hr, beq_iff_eq.2 hstore⟩, rfl⟩

/-- Every chunk of a valid database can be read. -/
theorem chunk?_eq_ok (h : db.Valid) (store id : String) :
    db.chunk? store id = .ok ((db.shelf store).chunks id) := by
  unfold chunk?
  rw [chunks_shelf_eq]
  cases hfind : db.chunks.find? (isChunk store id) with
  | none => rfl
  | some r =>
    have hrecord := ChunkRow.record_eq_ok (h.readable r (List.mem_of_find?_eq_some hfind))
    simp only [hrecord, Except.map, Option.map_some]

theorem mapM_chunk? (h : db.Valid) (store : String) (ids : List String) :
    ids.mapM (db.chunk? store) = .ok (ids.map (db.shelf store).chunks) := by
  induction ids with
  | nil => rfl
  | cons id rest ih =>
    rw [List.mapM_cons, chunk?_eq_ok h, ih]
    rfl

/-- The database keeps no vectors. -/
theorem plain_chunks_shelf (h : db.Valid) {store id : String} {chunk : ChunkRecord}
    (hchunk : (db.shelf store).chunks id = some chunk) : chunk.plain = chunk := by
  obtain ⟨r, -, -, -, rfl⟩ := h.chunks_shelf.1 hchunk
  rfl

/-! ## The laws -/

theorem hasStore_iff {store : String} : db.hasStore store = true ↔ store ∈ db.stores := by
  simp [hasStore]

theorem held_eq (h : db.Valid) (name : String) :
    held db name = if name ∈ db.stores then some (db.shelf name) else none := by
  have hhas : (RecordStore.hasStore name db).1 = .ok (db.hasStore name) := rfl
  rw [held, hhas]
  by_cases hname : name ∈ db.stores
  · have hstore := hasStore_iff.2 hname
    rw [if_pos hname, hstore]
    refine congrArg some ?_
    ext1
    · funext path
      simp only [documentAt, RecordStore.findDocument, reading, checkStore, hstore, if_true]
      rw [documents_shelf_eq]
      cases hfind : db.documents.find? (isDocument name path) with
      | none => rfl
      | some r => rfl
    · funext id
      simp only [chunkAt, RecordStore.findChunks, reading, checkStore, hstore, if_true]
      rw [mapM_chunk? h]
      cases hchunk : (db.shelf name).chunks id with
      | none => simp [hchunk, Except.map, bind, Except.bind]
      | some chunk =>
        have hplain := plain_chunks_shelf h hchunk
        simp [hchunk, hplain, Except.map, bind, Except.bind]
  · have hstore : db.hasStore name = false := by
      rw [Bool.eq_false_iff, ne_eq, hasStore_iff]
      exact hname
    rw [if_neg hname, hstore]

/-- What a call does to the holdings of all stores, if the stores stay and one shelf changes. -/
theorem held_update (h : db.Valid) (hafter : after.Valid) {name : String} {shelf : Shelf}
    (hname : name ∈ db.stores) (hstores : after.stores = db.stores)
    (hshelf : after.shelf = Function.update db.shelf name shelf) :
    held after = Function.update (held db) name (some shelf) := by
  funext name'
  rw [held_eq hafter, hstores, hshelf]
  by_cases hname' : name' = name
  · subst hname'
    rw [if_pos hname, Function.update_self, Function.update_self]
  · rw [Function.update_of_ne hname', Function.update_of_ne hname', held_eq h]

theorem reads_reading {α : Type} {name : String} {read : Database → Except StoreError α}
    {answers : Shelf → α → Prop}
    (hread : ∀ db : Database, db.Valid → ∃ a, read db = .ok a ∧ answers (db.shelf name) a) :
    Reads Valid name (reading name read) answers := by
  intro db h
  refine ⟨rfl, ?_⟩
  rw [held_eq h]
  by_cases hname : name ∈ db.stores
  · obtain ⟨a, hok, hanswers⟩ := hread db h
    rw [if_pos hname]
    refine ⟨a, ?_, hanswers⟩
    simp only [reading, checkStore, hasStore_iff.2 hname, if_true]
    exact hok
  · have hstore : ¬ db.hasStore name = true := by rwa [hasStore_iff]
    rw [if_neg hname]
    simp only [reading, checkStore, if_neg hstore]
    rfl

theorem changes_changing {α : Type} {name : String}
    {change : Database → Except StoreError (α × Database)} {shelved : Shelf → Shelf} {able : Prop}
    (hok : ∀ (db : Database) (a : α) (after : Database), db.Valid → name ∈ db.stores →
      change db = .ok (a, after) →
      after.Valid ∧ after.stores = db.stores ∧
        after.shelf = Function.update db.shelf name (shelved (db.shelf name)))
    (hable : able → ∀ db : Database, db.Valid → ∃ result, change db = .ok result) :
    Changes Valid name (changing name change) shelved able := by
  have hmissing : ∀ db : Database, name ∉ db.stores →
      changing name change db = (.error (.storeNotFound name), db) := by
    intro db hname
    have hstore : ¬ db.hasStore name = true := by rwa [hasStore_iff]
    simp [changing, checkStore, hstore, bind, Except.bind]
  have hdone : ∀ (db : Database) (a : α) (after : Database), name ∈ db.stores →
      change db = .ok (a, after) → changing name change db = (.ok a, after) := by
    intro db a after hname hchange
    simp [changing, checkStore, hasStore_iff.2 hname, hchange, bind, Except.bind]
  have hfailed : ∀ (db : Database) (e : StoreError), name ∈ db.stores →
      change db = .error e → changing name change db = (.error e, db) := by
    intro db e hname hchange
    simp [changing, checkStore, hasStore_iff.2 hname, hchange, bind, Except.bind]
  refine ⟨fun db h => ?_, fun db h hnone => ?_, fun db e h hfails => ?_,
    fun db shelf h hheld hcan => ?_, fun db shelf a h hheld hanswer => ?_⟩
  · by_cases hname : name ∈ db.stores
    · cases hchange : change db with
      | error e =>
        rw [hfailed db e hname hchange]
        exact h
      | ok result =>
        rw [hdone db result.1 result.2 hname hchange]
        exact (hok db result.1 result.2 h hname hchange).1
    · rw [hmissing db hname]
      exact h
  · have hname : name ∉ db.stores := by
      intro hname
      simp [held_eq h, hname] at hnone
    rw [hmissing db hname]
  · by_cases hname : name ∈ db.stores
    · cases hchange : change db with
      | error e => rw [hfailed db e hname hchange]
      | ok result => simp [hdone db result.1 result.2 hname hchange] at hfails
    · rw [hmissing db hname]
  · have hname : name ∈ db.stores := by
      by_contra hname
      simp [held_eq h, hname] at hheld
    obtain ⟨result, hchange⟩ := hable hcan db h
    exact ⟨result.1, by rw [hdone db result.1 result.2 hname hchange]⟩
  · have hname : name ∈ db.stores := by
      by_contra hname
      simp [held_eq h, hname] at hheld
    have hshelf : db.shelf name = shelf := by simpa [held_eq h, hname] using hheld
    cases hchange : change db with
    | error e => simp [hfailed db e hname hchange] at hanswer
    | ok result =>
      obtain ⟨hvalid, hstores, hafter⟩ := hok db result.1 result.2 h hname hchange
      rw [hshelf] at hafter
      rw [hdone db result.1 result.2 hname hchange]
      exact held_update h hvalid hname hstores hafter

/-- A deletion that removes rows by a property is a change of the shelf. -/
theorem changes_of_drops {α : Type} {name : String} (change : Database → α × Database)
    {shelved : Shelf → Shelf} {able : Prop}
    (hdrops : ∀ db : Database, ∃ document chunk, Drops db (change db).2 name document chunk)
    (hshelf : ∀ db : Database, db.Valid →
      (change db).2.shelf = Function.update db.shelf name (shelved (db.shelf name))) :
    Changes Valid name (changing name fun db => .ok (change db)) shelved able := by
  refine changes_changing (fun db a after h hname hchange => ?_) fun _ db _ => ⟨change db, rfl⟩
  obtain rfl : (change db).2 = after := congrArg Prod.snd (Except.ok.inj hchange)
  obtain ⟨document, chunk, hdb⟩ := hdrops db
  exact ⟨h.drops hdb, hdb.stores, hshelf db h⟩

theorem createStore_law (name : String) (h : db.Valid) :
    Valid (RecordStore.createStore name db).2 ∧
      held (RecordStore.createStore name db).2 =
        Function.update (held db) name (some ((held db name).getD {})) := by
  by_cases hname : name ∈ db.stores
  · have hsame : (RecordStore.createStore name db).2 = db := by
      simp [RecordStore.createStore, hasStore_iff.2 hname]
    have hheld : held db name = some (db.shelf name) := by rw [held_eq h, if_pos hname]
    rw [hsame, hheld, Option.getD_some, ← hheld, Function.update_eq_self]
    exact ⟨h, rfl⟩
  · have hnew :
        (RecordStore.createStore name db).2 = { db with stores := db.stores ++ [name] } := by
      simp [RecordStore.createStore, hasStore, hname]
    have hvalid : Valid { db with stores := db.stores ++ [name] } := {
      h with
      stores := by
        rw [List.nodup_append]
        refine ⟨h.stores, by simp, ?_⟩
        rintro store hstore store' hstore' rfl
        exact hname (List.mem_singleton.1 hstore' ▸ hstore)
      documentStores := fun r hr => List.mem_append_left _ (h.documentStores r hr)
      chunkStores := fun r hr => List.mem_append_left _ (h.chunkStores r hr) }
    rw [hnew]
    refine ⟨hvalid, ?_⟩
    funext name'
    have hsame : shelf { db with stores := db.stores ++ [name] } = db.shelf := rfl
    rw [held_eq hvalid, hsame]
    by_cases hname' : name' = name
    · subst hname'
      simp [held_eq h, hname, h.shelf_of_not_mem hname]
    · simp [held_eq h, hname']

theorem dropStore_law (name : String) (h : db.Valid) :
    Valid (RecordStore.dropStore name db).2 ∧
      held (RecordStore.dropStore name db).2 = Function.update (held db) name none := by
  have hdrops := drops_emptied db name
  have hempty := h.drops hdrops
  have hafter : (RecordStore.dropStore name db).2 =
      { db.emptied name with stores := db.stores.filter (· != name) } := rfl
  have hvalid : Valid { db.emptied name with stores := db.stores.filter (· != name) } := {
    hempty with
    stores := h.stores.filter _
    documentStores := fun r hr => by
      have hstore := hempty.documentStores r hr
      rw [hdrops.documents] at hr
      rw [hdrops.stores] at hstore
      simpa [hstore] using (List.mem_filter.1 hr).2
    chunkStores := fun r hr => by
      have hstore := hempty.chunkStores r hr
      rw [hdrops.chunks] at hr
      rw [hdrops.stores] at hstore
      simpa [hstore] using (List.mem_filter.1 hr).2 }
  rw [hafter]
  refine ⟨hvalid, ?_⟩
  funext name'
  have hsame : shelf { db.emptied name with stores := db.stores.filter (· != name) } =
      (db.emptied name).shelf := rfl
  rw [held_eq hvalid, hsame, shelf_emptied h]
  by_cases hname' : name' = name
  · subst hname'
    simp
  · simp [held_eq h, hname']

instance : LawfulStore Database where
  Valid := Valid
  startsWith := startsWith
  Fits c := c.startLine ≤ maxColumnValue ∧ c.endLine ≤ maxColumnValue
  keyed name db shelf h hheld := by
    rw [held_eq h] at hheld
    split at hheld
    · obtain rfl := Option.some.inj hheld
      exact h.keyed_shelf name
    · cases hheld
  hasStore name db _ := ⟨_, rfl⟩
  allStores db h := by
    refine ⟨sortTexts db.stores, rfl, pairwise_sortTexts h.stores, fun name => ?_⟩
    rw [mem_sortTexts, held_eq h]
    simp
  createStore name db h := by
    obtain ⟨hvalid, hheld⟩ := createStore_law name h
    exact ⟨hvalid, rfl, hheld⟩
  dropStore name db h := by
    obtain ⟨hvalid, hheld⟩ := dropStore_law name h
    exact ⟨hvalid, rfl, hheld⟩
  findDocument name path := reads_reading fun db h => by
    refine ⟨_, rfl, ?_⟩
    rw [documents_shelf_eq]
    cases hfind : db.documents.find? (isDocument name path) with
    | none => exact .none
    | some r =>
      obtain ⟨-, rfl, -⟩ := h.find?_document.1 hfind
      exact .some (lists_documentOf h r)
  allDocuments name := reads_reading fun db h => ⟨_, rfl, listsAll_documentRows h name⟩
  findChunks name ids := reads_reading fun db h => by
    refine ⟨ids.filterMap (db.shelf name).chunks, ?_, ?_⟩
    · rw [mapM_chunk? h]
      simp [Except.map, List.filterMap_map]
    · rw [List.map_filterMap]
      refine List.filterMap_congr fun id _ => ?_
      cases hchunk : (db.shelf name).chunks id with
      | none => rfl
      | some chunk => exact congrArg some (plain_chunks_shelf h hchunk)
  stats name := reads_reading fun db h => ⟨_, rfl, counts_statsOf h name⟩
  putDocument name document := changes_changing
    (fun db a after h hname hchange => by
      obtain rfl : db.addDocument name document = after :=
        congrArg Prod.snd (Except.ok.inj hchange)
      exact ⟨h.addDocument hname document, stores_addDocument db name document,
        shelf_addDocument db name document⟩)
    fun _ db _ => ⟨_, rfl⟩
  putChunks name chunks := changes_changing
    (fun db a after h hname hchange => by
      obtain ⟨written, hwritten, hpair⟩ : ∃ written, addChunks name chunks db = .ok written ∧
          ((), written) = (a, after) := by
        cases hwritten : addChunks name chunks db with
        | error e => simp [hwritten, Except.map] at hchange
        | ok written => exact ⟨written, rfl, by simpa [hwritten, Except.map] using hchange⟩
      obtain rfl : written = after := congrArg Prod.snd hpair
      obtain rfl := eq_foldl_of_addChunks_eq_ok hwritten
      exact ⟨h.foldl_addChunk hname chunks, stores_foldl_addChunk db name chunks,
        shelf_foldl_addChunk db name chunks⟩)
    fun hfits db _ => ⟨_, by rw [addChunks_eq_ok name chunks db hfits]; rfl⟩
  dropChunks name ids := changes_of_drops (·.dropChunks name ids)
    (fun db => ⟨_, _, drops_dropChunks db name ids⟩)
    fun db h => shelf_dropChunks h name ids
  dropDocuments name paths := changes_of_drops (·.dropPaths name paths)
    (fun db => ⟨_, _, drops_dropPaths db name paths⟩)
    fun db h => shelf_dropPaths h name paths
  dropDocumentsBelow name start := changes_of_drops
    (fun db => db.dropPaths name (db.pathsBelow name start))
    (fun db => ⟨_, _, drops_dropPaths db name (db.pathsBelow name start)⟩) fun db h => by
      rw [shelf_dropPaths h]
      refine congrArg _ (Shelf.dropWhere_congr fun path hpath => ?_)
      rw [Bool.eq_iff_iff, List.contains_iff_mem, mem_pathsBelow h]
      exact and_iff_right hpath
  clear name := changes_of_drops (fun db => ((), db.emptied name))
    (fun db => ⟨_, _, drops_emptied db name⟩) fun db h => shelf_emptied h name

end CodeIndex.Database
