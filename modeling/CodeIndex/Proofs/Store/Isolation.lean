import CodeIndex.Proofs.Store.Atomic

/-!
# Stores do not see each other

All stores of a database share its tables, and two stores may well have rows with the same paths and
identifiers.  Nevertheless a request on one store leaves everything that can be read out of another
one as it was: each statement of the request touches rows of its own store only.

## Main definitions

* `Request.store?` is the store that a request concerns.
* `SameReads` says that everything that can be read out of one store is the same in two states.
* `Database.only` is what a database has of one store, and `Statement.Concerns` says that a
  statement touches one store only.

## Main results

* `MemoryStore.isolates`, `Database.isolates`, `VectorStore.isolates` and `Backend.isolates`: a
  request on one store keeps the reads of the others.
-/

namespace CodeIndex

/-- The store that a request concerns. -/
def Request.store? : Request → Option String
  | allStores => none
  | createStore store | hasStore store | dropStore store | putDocument store _ | putChunks store _
  | findDocument store _ | allDocuments store | findChunks store _ | dropChunks store _
  | dropDocuments store _ | dropDocumentsBelow store _ | clear store | stats store => some store

/-- Everything that can be read out of one store is the same in two states. -/
def SameReads {σ : Type} [RecordStore σ] (name : String) (s s' : σ) : Prop :=
  ∀ read : Request, read.IsRead → read.store? = some name →
    (perform read s').1 = (perform read s).1

/-- A request on one store keeps the reads of the others. -/
def Isolates (σ : Type) [RecordStore σ] : Prop :=
  ∀ (request : Request) (a b : String), request.store? = some a → a ≠ b → ∀ s : σ,
    SameReads b s (perform request s).2

namespace SameReads

variable {σ : Type} [RecordStore σ] {name : String} {s s' s'' : σ}

theorem refl (name : String) (s : σ) : SameReads name s s := fun _ _ _ => rfl

theorem trans (h : SameReads name s s') (h' : SameReads name s' s'') : SameReads name s s'' :=
  fun read hread hname => (h' read hread hname).trans (h read hread hname)

theorem symm (h : SameReads name s s') : SameReads name s' s :=
  fun read hread hname => (h read hread hname).symm

/-- There are five calls that read one store. -/
theorem of_calls (hasStore : (RecordStore.hasStore name s').1 = (RecordStore.hasStore name s).1)
    (findDocument : ∀ path, (RecordStore.findDocument name path s').1 =
      (RecordStore.findDocument name path s).1)
    (allDocuments : (RecordStore.allDocuments name s').1 = (RecordStore.allDocuments name s).1)
    (findChunks : ∀ ids, (RecordStore.findChunks name ids s').1 =
      (RecordStore.findChunks name ids s).1)
    (stats : (RecordStore.stats name s').1 = (RecordStore.stats name s).1) :
    SameReads name s s' := by
  intro read hread hname
  cases read with
  | hasStore store =>
    obtain rfl : store = name := Option.some.inj hname
    rw [perform, fst_answering, fst_answering, hasStore]
  | findDocument store path =>
    obtain rfl : store = name := Option.some.inj hname
    rw [perform, fst_answering, fst_answering, findDocument]
  | allDocuments store =>
    obtain rfl : store = name := Option.some.inj hname
    rw [perform, fst_answering, fst_answering, allDocuments]
  | findChunks store ids =>
    obtain rfl : store = name := Option.some.inj hname
    rw [perform, fst_answering, fst_answering, findChunks]
  | stats store =>
    obtain rfl : store = name := Option.some.inj hname
    rw [perform, fst_answering, fst_answering, stats]
  | allStores => cases hname
  | createStore | dropStore | putDocument | putChunks | dropChunks | dropDocuments
  | dropDocumentsBelow | clear => exact hread.elim

end SameReads

/-! ## In memory -/

namespace MemoryStore

variable {a b : String}

/-- What is read out of a store is read out of its collection. -/
theorem sameReads {m m' : MemoryStore} (h : m'.stores[b]? = m.stores[b]?) : SameReads b m m' := by
  have hreading : ∀ {α : Type} (read : Collection → α),
      (reading b read m').1 = (reading b read m).1 := by
    intro α read
    unfold reading
    rw [h]
    cases m.stores[b]? <;> rfl
  refine .of_calls ?_ (fun path => hreading _) (hreading _) (fun ids => hreading _) (hreading _)
  show Except.ok (m'.stores.contains b) = Except.ok (m.stores.contains b)
  rw [Std.TreeMap.contains_eq_isSome_getElem?, h, Std.TreeMap.contains_eq_isSome_getElem?]

theorem stores_changing {α : Type} (change : Collection → α × Collection) (hne : a ≠ b)
    (m : MemoryStore) : (changing a change m).2.stores[b]? = m.stores[b]? := by
  unfold changing
  cases m.stores[a]? with
  | none => rfl
  | some col => simp [Std.TreeMap.getElem?_insert, Std.LawfulEqCmp.compare_eq_iff_eq, hne]

theorem stores_reading {α : Type} (read : Collection → α) (m : MemoryStore) :
    (reading a read m).2.stores[b]? = m.stores[b]? := by
  unfold reading
  cases m.stores[a]? <;> rfl

theorem stores_perform {request : Request} (hstore : request.store? = some a) (hne : a ≠ b)
    (m : MemoryStore) : (perform request m).2.stores[b]? = m.stores[b]? := by
  cases request with
  | allStores => cases hstore
  | createStore store =>
    obtain rfl : store = a := Option.some.inj hstore
    rw [perform, snd_answering]
    simp [RecordStore.createStore, Std.TreeMap.getElem?_insertIfNew,
      Std.LawfulEqCmp.compare_eq_iff_eq, hne]
  | dropStore store =>
    obtain rfl : store = a := Option.some.inj hstore
    rw [perform, snd_answering]
    simp [RecordStore.dropStore, Std.TreeMap.getElem?_erase, Std.LawfulEqCmp.compare_eq_iff_eq,
      hne]
  | hasStore store => rfl
  | findDocument | allDocuments | findChunks | stats =>
    rw [perform, snd_answering]
    exact stores_reading _ m
  | dropChunks store ids =>
    obtain rfl : store = a := Option.some.inj hstore
    rw [perform, snd_answering]
    show (if ids.isEmpty then _ else _ : Except StoreError Nat × MemoryStore).2.stores[b]? = _
    split
    · rfl
    · exact stores_changing _ hne m
  | putDocument | putChunks | dropDocuments | dropDocumentsBelow | clear =>
    cases hstore
    rw [perform, snd_answering]
    exact stores_changing _ hne m

theorem isolates : Isolates MemoryStore :=
  fun _ _ _ hstore hne m => sameReads (stores_perform hstore hne m)

end MemoryStore

/-! ## On a database -/

/-- A statement that touches rows of one store only. -/
def Statement.Concerns (name : String) : Statement → Prop
  | insertStore store | deleteStore store | upsertDocument store _ | upsertChunk store _ =>
    store = name
  | deleteDocuments drop => ∀ r, drop r → r.store = name
  | deleteChunks drop => ∀ r, drop r → r.store = name

namespace Database

variable {db after : Database} {a b : String}

/-- What a database has of one store. -/
def only (db : Database) (name : String) : Database :=
  { stores := db.stores.filter (· == name)
    documents := db.documents.filter (·.store == name)
    chunks := db.chunks.filter (·.store == name) }

theorem hasStore_only (db : Database) (name : String) :
    (db.only name).hasStore name = db.hasStore name := by
  rw [Bool.eq_iff_iff, hasStore_iff, hasStore_iff]
  simp [only]

/-- Rows that are filtered out by the store do not count where the store is asked for. -/
theorem filter_of_imp {α : Type} {p q : α → Bool} (h : ∀ r, p r → q r) (rows : List α) :
    (rows.filter q).filter p = rows.filter p := by
  rw [List.filter_filter]
  refine List.filter_congr fun r _ => ?_
  by_cases hp : p r
  · rw [h r hp, hp, Bool.and_self]
  · rw [Bool.not_eq_true] at hp
    rw [hp, Bool.false_and]

theorem find?_of_imp {α : Type} {p q : α → Bool} (h : ∀ r, p r → q r) (rows : List α) :
    (rows.filter q).find? p = rows.find? p := by
  rw [← List.head?_filter, ← List.head?_filter, filter_of_imp h]

theorem find?_document_only (db : Database) (name path : String) :
    (db.only name).documents.find? (isDocument name path) =
      db.documents.find? (isDocument name path) :=
  find?_of_imp (fun _ hr => beq_iff_eq.2 (isDocument_iff.1 hr).1) db.documents

theorem find?_chunk_only (db : Database) (name id : String) :
    (db.only name).chunks.find? (isChunk name id) = db.chunks.find? (isChunk name id) :=
  find?_of_imp (fun _ hr => beq_iff_eq.2 (isChunk_iff.1 hr).1) db.chunks

theorem documentRows_only (db : Database) (name : String) :
    (db.only name).documentRows name = db.documentRows name := by
  simp only [documentRows, only, List.filter_filter, Bool.and_self]

theorem documentOf_only (db : Database) {name : String} {r : DocumentRow} (hr : r.store = name) :
    (db.only name).documentOf r = db.documentOf r := by
  have hchunks : (db.only name).chunks.filter
      (fun c => c.store == r.store && c.documentId == r.documentId) =
        db.chunks.filter fun c => c.store == r.store && c.documentId == r.documentId := by
    refine filter_of_imp (fun c hc => ?_) db.chunks
    rw [← hr]
    exact (Bool.and_eq_true_iff.1 hc).1
  rw [documentOf, documentOf, chunkIdsWhere, chunkIdsWhere, hchunks]

/-- Reading one store takes no other rows than those of the store. -/
theorem sameReads_only (db : Database) (name : String) : SameReads name db (db.only name) := by
  have hreading : ∀ {α : Type} {read : Database → Except StoreError α},
      read (db.only name) = read db →
        (reading name read (db.only name)).1 = (reading name read db).1 := by
    intro α read hread
    simp only [reading, checkStore, hasStore_only, hread]
  refine .of_calls ?_ (fun path => hreading ?_) (hreading ?_) (fun ids => hreading ?_)
    (hreading ?_)
  · exact congrArg Except.ok (hasStore_only db name)
  · rw [find?_document_only]
    cases hfind : db.documents.find? (isDocument name path) with
    | none => rfl
    | some r =>
      obtain ⟨hstore, -⟩ := isDocument_iff.1 (List.find?_some hfind)
      rw [Option.map_some, Option.map_some, documentOf_only db hstore]
  · rw [documentRows_only]
    refine congrArg Except.ok (List.map_congr_left fun r hr => ?_)
    exact documentOf_only db (mem_documentRows.1 hr).2
  · have hchunk : (db.only name).chunk? name = db.chunk? name := by
      funext id
      rw [chunk?, chunk?, find?_chunk_only]
    rw [hchunk]
  · rw [statsOf, statsOf, documentRows_only]
    simp only [only, List.filter_filter, Bool.and_self]

theorem sameReads_of_only {name : String} (h : after.only name = db.only name) :
    SameReads name db after := by
  refine (sameReads_only db name).trans ?_
  rw [← h]
  exact (sameReads_only after name).symm

/-! ### What statements touch -/

/-- Rows that are overwritten by a row of another store are not seen. -/
theorem filter_overwrite {α : Type} {p q : α → Bool} {new : α} (hnew : q new = false)
    (h : ∀ r, p r → q r = false) (rows : List α) :
    (rows.map fun r => if p r then new else r).filter q = rows.filter q := by
  induction rows with
  | nil => rfl
  | cons r rest ih =>
    rw [List.map_cons, List.filter_cons, List.filter_cons, ih]
    by_cases hp : p r
    · simp [hp, hnew, h r hp]
    · rw [if_neg hp]

/-- Rows that are deleted from another store are not seen. -/
theorem filter_deleted {α : Type} {drop q : α → Bool} (h : ∀ r, drop r → q r = false)
    (rows : List α) : (rows.filter fun r => !drop r).filter q = rows.filter q := by
  rw [List.filter_filter]
  refine List.filter_congr fun r _ => ?_
  by_cases hdrop : drop r
  · rw [h r hdrop, Bool.false_and]
  · rw [Bool.not_eq_true] at hdrop
    rw [hdrop, Bool.not_false, Bool.and_true]

theorem only_addDocument (hne : a ≠ b) (document : DocumentRecord) :
    (db.addDocument a document).only b = db.only b := by
  have hnew : ((documentRowOf a document).store == b) = false := beq_false_of_ne hne
  have hrows : (db.addDocument a document).documents.filter (·.store == b) =
      db.documents.filter (·.store == b) := by
    rw [documents_addDocument]
    split
    · refine filter_overwrite (q := fun r => r.store == b) hnew (fun r hr => ?_) db.documents
      rw [(isDocument_iff.1 hr).1]
      exact beq_false_of_ne hne
    · rw [List.filter_append, List.filter_singleton, hnew]
      exact List.append_nil _
  rw [only, only, hrows, stores_addDocument, chunks_addDocument]

theorem only_addChunk (hne : a ≠ b) (c : ChunkRecord) :
    (db.addChunk a c).only b = db.only b := by
  have hnew : ∀ row, ((rowOf row a c).store == b) = false := fun _ => beq_false_of_ne hne
  have hrows : (db.addChunk a c).chunks.filter (·.store == b) =
      db.chunks.filter (·.store == b) := by
    cases hold : db.chunks.find? (isChunk a c.chunkId) with
    | some old =>
      rw [addChunk_of_some hold]
      refine filter_overwrite (q := fun r => r.store == b) (hnew old.row) (fun r hr => ?_) db.chunks
      rw [(isChunk_iff.1 hr).1]
      exact beq_false_of_ne hne
    | none =>
      rw [addChunk_of_none hold]
      dsimp only
      rw [List.filter_append, List.filter_singleton, hnew db.nextRow]
      exact List.append_nil _
  rw [only, only, hrows, stores_addChunk, documents_addChunk]

/-- A statement on one store changes nothing that a database has of another one. -/
theorem only_run {statement : Statement} (hstatement : statement.Concerns a) (hne : a ≠ b)
    (hrun : statement.run db = .ok after) : after.only b = db.only b := by
  have hother : ∀ {α : Type} {drop : α → Bool} {store : α → String},
      (∀ r, drop r → store r = a) → ∀ r, drop r → (store r == b) = false :=
    fun hdrop r hr => by rw [hdrop r hr, beq_false_of_ne hne]
  cases statement with
  | insertStore store =>
    obtain rfl : store = a := hstatement
    obtain rfl := Except.ok.inj hrun
    split
    · rfl
    · simp [only, hne]
  | deleteStore store =>
    obtain rfl : store = a := hstatement
    obtain rfl := Except.ok.inj hrun
    have hstores : (db.stores.filter (· != store)).filter (· == b) = db.stores.filter (· == b) := by
      refine filter_of_imp (fun name hname => ?_) db.stores
      rw [beq_iff_eq.1 hname]
      exact bne_iff_ne.2 hne.symm
    rw [only, only, hstores]
  | upsertDocument store document =>
    obtain rfl : store = a := hstatement
    obtain rfl := Except.ok.inj hrun
    exact only_addDocument hne document
  | upsertChunk store chunk =>
    obtain rfl : store = a := hstatement
    obtain rfl := eq_foldl_of_addChunks_eq_ok hrun
    exact only_addChunk hne chunk
  | deleteDocuments drop =>
    obtain rfl := Except.ok.inj hrun
    simp only [only, dropDocumentRows, filter_deleted (hother hstatement)]
  | deleteChunks drop =>
    obtain rfl := Except.ok.inj hrun
    simp only [only, dropChunkRows, filter_deleted (hother hstatement)]

theorem only_foldlM {statements : List Statement} (h : ∀ statement ∈ statements,
    statement.Concerns a) (hne : a ≠ b) (hrun : statements.foldlM Statement.run db = .ok after) :
    after.only b = db.only b := by
  induction statements generalizing db with
  | nil =>
    obtain rfl : db = after := Except.ok.inj hrun
    rfl
  | cons statement rest ih =>
    obtain ⟨hstatement, hrest⟩ := List.forall_mem_cons.1 h
    rw [List.foldlM_cons] at hrun
    cases hfirst : statement.run db with
    | error e =>
      rw [hfirst] at hrun
      cases hrun
    | ok next =>
      rw [hfirst] at hrun
      exact (ih hrest hrun).trans (only_run hstatement hne hfirst)

/-! ### Requests -/

theorem concerns_emptying (name : String) :
    ∀ statement ∈ emptying name, statement.Concerns name := by
  intro statement hstatement
  obtain rfl | hstatement := List.mem_cons.1 hstatement
  · exact fun r hr => beq_iff_eq.1 hr
  · obtain rfl := List.mem_singleton.1 hstatement
    exact fun r hr => beq_iff_eq.1 hr

theorem concerns_removal (name : String) (paths : List String) :
    ∀ statement ∈ removal name paths, statement.Concerns name := by
  intro statement hstatement
  obtain ⟨path, -, hstatement⟩ := List.mem_flatMap.1 hstatement
  obtain rfl | hstatement := List.mem_cons.1 hstatement
  · exact fun r hr => beq_iff_eq.1 (Bool.and_eq_true_iff.1 hr).1
  · obtain rfl := List.mem_singleton.1 hstatement
    exact fun r hr => (isDocument_iff.1 hr).1

/-- Every statement of a request touches the store of the request only. -/
theorem concerns_statements {request : Request} {name : String}
    (hstore : request.store? = some name) (db : Database) :
    ∀ statement ∈ db.statements request, statement.Concerns name := by
  intro statement hstatement
  cases request with
  | allStores => cases hstore
  | hasStore | findDocument | allDocuments | findChunks | stats => cases hstatement
  | createStore store | putDocument store document =>
    obtain rfl := List.mem_singleton.1 hstatement
    exact Option.some.inj hstore
  | putChunks store chunks =>
    obtain ⟨chunk, -, rfl⟩ := List.mem_map.1 hstatement
    exact Option.some.inj hstore
  | dropChunks store ids =>
    obtain rfl : store = name := Option.some.inj hstore
    obtain ⟨id, -, rfl⟩ := List.mem_map.1 hstatement
    exact fun r hr => (isChunk_iff.1 hr).1
  | dropDocuments store paths =>
    obtain rfl : store = name := Option.some.inj hstore
    exact concerns_removal store _ statement hstatement
  | dropDocumentsBelow store start =>
    obtain rfl : store = name := Option.some.inj hstore
    exact concerns_removal store _ statement hstatement
  | clear store =>
    obtain rfl : store = name := Option.some.inj hstore
    exact concerns_emptying store statement hstatement
  | dropStore store =>
    obtain rfl : store = name := Option.some.inj hstore
    obtain hstatement | hstatement := List.mem_append.1 hstatement
    · exact concerns_emptying store statement hstatement
    · obtain rfl := List.mem_singleton.1 hstatement
      exact rfl

theorem only_perform {request : Request} (hstore : request.store? = some a) (hne : a ≠ b)
    (db : Database) : (perform request db).2.only b = db.only b := by
  obtain hsame | hchanged := snd_perform_cases request db
  · rw [hsame]
  · exact only_foldlM (concerns_statements hstore db) hne hchanged

theorem isolates : Isolates Database :=
  fun _ _ _ hstore hne db => sameReads_of_only (only_perform hstore hne db)

end Database

/-! ## With a vector service -/

namespace VectorStore

/-- Reads are answered by the database alone. -/
theorem sameReads {name : String} {s s' : VectorStore} (h : SameReads name s.records s'.records) :
    SameReads name s s' := by
  have hcall : ∀ {α : Type} {answer : α → Answer} {call : StoreCall Database α},
      (call.answering answer s'.records).1 = (call.answering answer s.records).1 →
        (inRecords call s').1.map answer = (inRecords call s).1.map answer := by
    intro α answer call hanswer
    rw [fst_answering, fst_answering] at hanswer
    exact hanswer
  intro read hread hname
  have hrecords := h read hread hname
  cases read with
  | hasStore | findDocument | allDocuments | findChunks | stats =>
    rw [perform, fst_answering, fst_answering]
    exact hcall hrecords
  | allStores => cases hname
  | createStore | dropStore | putDocument | putChunks | dropChunks | dropDocuments
  | dropDocumentsBelow | clear => exact hread.elim

/-- A call leaves everything as it is, or it does what the call on the database does. -/
theorem snd_perform_cases (request : Request) (s : VectorStore) :
    (perform request s).2 = s ∨ (perform request s).2.records = (perform request s.records).2 := by
  rw [← interrupted_unbroken, interrupted]
  cases s.served request with
  | error e => exact .inl rfl
  | ok _ =>
    rw [inRecords_interrupted_unbroken]
    exact .inr rfl

theorem isolates : Isolates VectorStore := by
  intro request a b hstore hne s
  obtain hsame | hrecords := snd_perform_cases request s
  · rw [hsame]
    exact .refl b s
  · refine sameReads ?_
    rw [hrecords]
    exact Database.isolates request a b hstore hne s.records

end VectorStore

namespace Backend

theorem sameReads_wrap {σ : Type} [RecordStore σ] {wrap : σ → Backend} (hwrap : Wraps wrap)
    {name : String} {s s' : σ} (h : SameReads name s s') : SameReads name (wrap s) (wrap s') := by
  intro read hread hname
  rw [perform_wrap hwrap, perform_wrap hwrap]
  exact h read hread hname

/-- On every backend a request on one store keeps the reads of the others. -/
theorem isolates : Isolates Backend := by
  intro request a b hstore hne backend
  cases backend with
  | memory m =>
    rw [perform_wrap wraps_memory]
    exact sameReads_wrap wraps_memory (MemoryStore.isolates request a b hstore hne m)
  | relational db =>
    rw [perform_wrap wraps_relational]
    exact sameReads_wrap wraps_relational (Database.isolates request a b hstore hne db)
  | vector s =>
    rw [perform_wrap wraps_vector]
    exact sameReads_wrap wraps_vector (VectorStore.isolates request a b hstore hne s)

end Backend

end CodeIndex
