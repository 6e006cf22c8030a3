import Mathlib.Data.List.Sort
import Mathlib.Logic.Function.Basic
import CodeIndex.Store.Interface

/-!
# What a store holds

The contents of a store as two maps, `Shelf.documents` by path and `Shelf.chunks` by identifier, and
the laws by which the calls of the interface read and change them.  A shelf is what can be read out
of a store through its own calls: `held` looks up every path and every identifier.  The vector of a
chunk is left out, because not every backend keeps it.

## Main definitions

* `Shelf.addDocument`, `Shelf.addChunk`, `Shelf.dropChunks` and `Shelf.dropWhere` are the changes.
* `Shelf.Lists`, `Shelf.ListsAll` and `Shelf.Counts` say which answers a store may give about a
  shelf; each of them leaves one answer only.
* `LawfulStore` collects the laws.  A law about a call says what the call does to every store, the
  named one and the others.
-/

namespace CodeIndex

/-- A chunk without its vector. -/
def ChunkRecord.plain (chunk : ChunkRecord) : ChunkRecord := { chunk with vector := none }

/-- A document without the list that a store fills in when it answers. -/
def DocumentRecord.bare (document : DocumentRecord) : DocumentRecord :=
  { document with chunkIds := [] }

@[simp] theorem ChunkRecord.chunkId_plain (chunk : ChunkRecord) :
    chunk.plain.chunkId = chunk.chunkId := rfl

@[simp] theorem ChunkRecord.documentId_plain (chunk : ChunkRecord) :
    chunk.plain.documentId = chunk.documentId := rfl

@[simp] theorem ChunkRecord.path_plain (chunk : ChunkRecord) : chunk.plain.path = chunk.path := rfl

@[simp] theorem DocumentRecord.path_bare (document : DocumentRecord) :
    document.bare.path = document.path := rfl

@[simp] theorem DocumentRecord.documentId_bare (document : DocumentRecord) :
    document.bare.documentId = document.documentId := rfl

/-- The contents of a store. -/
@[ext] structure Shelf where
  documents : String → Option DocumentRecord := fun _ => none
  chunks : String → Option ChunkRecord := fun _ => none

namespace Shelf

/-! ## Changes -/

/-- Write the record of a document. -/
def addDocument (shelf : Shelf) (document : DocumentRecord) : Shelf :=
  { shelf with
    documents := fun path =>
      if path = document.path then some document.bare else shelf.documents path }

/-- Write a chunk. -/
def addChunk (shelf : Shelf) (chunk : ChunkRecord) : Shelf :=
  { shelf with
    chunks := fun id => if id = chunk.chunkId then some chunk.plain else shelf.chunks id }

/-- Write chunks, one after the other. -/
def addChunks (shelf : Shelf) (chunks : List ChunkRecord) : Shelf := chunks.foldl addChunk shelf

/-- Remove the chunks with the given identifiers. -/
def dropChunks (shelf : Shelf) (ids : List String) : Shelf :=
  { shelf with chunks := fun id => if id ∈ ids then none else shelf.chunks id }

/-- Remove the documents whose paths have a property, together with the chunks at these paths.  A
chunk at a path without a document stays. -/
def dropWhere (shelf : Shelf) (drop : String → Bool) : Shelf where
  documents path := if drop path then none else shelf.documents path
  chunks id := (shelf.chunks id).filter fun chunk =>
    !(drop chunk.path && (shelf.documents chunk.path).isSome)

/-- Remove the documents at some paths. -/
def dropDocuments (shelf : Shelf) (paths : List String) : Shelf := shelf.dropWhere paths.contains

@[simp] theorem documents_addChunk (shelf : Shelf) (chunk : ChunkRecord) :
    (shelf.addChunk chunk).documents = shelf.documents := rfl

@[simp] theorem documents_addChunks (shelf : Shelf) (chunks : List ChunkRecord) :
    (shelf.addChunks chunks).documents = shelf.documents := by
  induction chunks generalizing shelf with
  | nil => rfl
  | cons chunk rest ih => exact ih (shelf.addChunk chunk)

@[simp] theorem documents_dropChunks (shelf : Shelf) (ids : List String) :
    (shelf.dropChunks ids).documents = shelf.documents := rfl

@[simp] theorem chunks_addDocument (shelf : Shelf) (document : DocumentRecord) :
    (shelf.addDocument document).chunks = shelf.chunks := rfl

@[simp] theorem dropChunks_nil (shelf : Shelf) : shelf.dropChunks [] = shelf := by
  simp [dropChunks]

theorem addChunks_cons (shelf : Shelf) (chunk : ChunkRecord) (rest : List ChunkRecord) :
    shelf.addChunks (chunk :: rest) = (shelf.addChunk chunk).addChunks rest := rfl

/-- Vectors do not matter. -/
theorem addChunks_map_plain (shelf : Shelf) (chunks : List ChunkRecord) :
    shelf.addChunks (chunks.map .plain) = shelf.addChunks chunks := by
  induction chunks generalizing shelf with
  | nil => rfl
  | cons chunk rest ih => exact ih (shelf.addChunk chunk)

theorem chunks_addChunks_of_notMem (shelf : Shelf) {chunks : List ChunkRecord} {id : String}
    (h : id ∉ chunks.map (·.chunkId)) : (shelf.addChunks chunks).chunks id = shelf.chunks id := by
  induction chunks generalizing shelf with
  | nil => rfl
  | cons chunk rest ih =>
    rw [List.map_cons, List.mem_cons, not_or] at h
    rw [addChunks_cons, ih (shelf.addChunk chunk) h.2]
    exact if_neg h.1

theorem chunks_addChunks_of_mem (shelf : Shelf) {chunks : List ChunkRecord} {id : String}
    {stored : ChunkRecord} (hmem : id ∈ chunks.map (·.chunkId))
    (hplain : ∀ chunk ∈ chunks, chunk.chunkId = id → chunk.plain = stored) :
    (shelf.addChunks chunks).chunks id = some stored := by
  induction chunks generalizing shelf with
  | nil => simp at hmem
  | cons chunk rest ih =>
    obtain ⟨hchunk, hrest⟩ := List.forall_mem_cons.1 hplain
    rw [addChunks_cons]
    by_cases h : id ∈ rest.map (·.chunkId)
    · exact ih (shelf.addChunk chunk) h hrest
    · rw [chunks_addChunks_of_notMem _ h]
      rw [List.map_cons, List.mem_cons] at hmem
      have hid : id = chunk.chunkId := hmem.resolve_right h
      rw [← hchunk hid.symm]
      exact if_pos hid

/-- The last chunk with an identifier is the one that stays. -/
theorem chunks_addChunks_last (shelf : Shelf) (before : List ChunkRecord)
    {chunk : ChunkRecord} {behind : List ChunkRecord}
    (hlast : chunk.chunkId ∉ behind.map (·.chunkId)) :
    (shelf.addChunks (before ++ chunk :: behind)).chunks chunk.chunkId = some chunk.plain := by
  have hsplit : shelf.addChunks (before ++ chunk :: behind) =
      ((shelf.addChunks before).addChunk chunk).addChunks behind := List.foldl_append
  rw [hsplit, chunks_addChunks_of_notMem _ hlast]
  exact if_pos rfl

/-- What stands on a shelf after chunks are written was written or has stood there before. -/
theorem chunks_addChunks_cases {shelf : Shelf} {chunks : List ChunkRecord} {id : String}
    {stored : ChunkRecord} (h : (shelf.addChunks chunks).chunks id = some stored) :
    (∃ chunk ∈ chunks, chunk.chunkId = id ∧ chunk.plain = stored) ∨
      (id ∉ chunks.map (·.chunkId) ∧ shelf.chunks id = some stored) := by
  induction chunks generalizing shelf with
  | nil => exact .inr ⟨by simp, h⟩
  | cons chunk rest ih =>
    obtain ⟨later, hlater, hid, hplain⟩ | ⟨hrest, hbefore⟩ := ih h
    · exact .inl ⟨later, List.mem_cons_of_mem _ hlater, hid, hplain⟩
    · by_cases hid : id = chunk.chunkId
      · simp only [addChunk, if_pos hid, Option.some.injEq] at hbefore
        exact .inl ⟨chunk, List.mem_cons_self, hid.symm, hbefore⟩
      · simp only [addChunk, if_neg hid] at hbefore
        exact .inr ⟨by simp [hid, hrest], hbefore⟩

/-- Chunks that are written and then removed leave nothing behind. -/
theorem dropChunks_addChunks (shelf : Shelf) (chunks : List ChunkRecord) :
    (shelf.addChunks chunks).dropChunks (chunks.map (·.chunkId)) =
      shelf.dropChunks (chunks.map (·.chunkId)) := by
  ext1
  · simp
  · funext id
    by_cases h : id ∈ chunks.map (·.chunkId)
    · simp only [dropChunks, if_pos h]
    · simp only [dropChunks, if_neg h, chunks_addChunks_of_notMem shelf h]

theorem dropChunks_addDocument (shelf : Shelf) (document : DocumentRecord) (ids : List String) :
    (shelf.addDocument document).dropChunks ids = (shelf.dropChunks ids).addDocument document :=
  rfl

/-- Only the paths that have a document matter. -/
theorem dropWhere_congr {shelf : Shelf} {first second : String → Bool}
    (h : ∀ path, (shelf.documents path).isSome → first path = second path) :
    shelf.dropWhere first = shelf.dropWhere second := by
  ext1
  · funext path
    cases hdocument : shelf.documents path with
    | none => simp [dropWhere, hdocument]
    | some document => simp [dropWhere, hdocument, h path (by simp [hdocument])]
  · funext id
    have hchunk : ∀ chunk : ChunkRecord, (first chunk.path && (shelf.documents chunk.path).isSome) =
        (second chunk.path && (shelf.documents chunk.path).isSome) := by
      intro chunk
      cases hdocument : shelf.documents chunk.path with
      | none => simp
      | some document => simp [h chunk.path (by simp [hdocument])]
    simp only [dropWhere, hchunk]

@[simp] theorem dropWhere_false (shelf : Shelf) : (shelf.dropWhere fun _ => false) = shelf := by
  ext1
  · funext path
    simp [dropWhere]
  · funext id
    cases hchunk : shelf.chunks id <;> simp [dropWhere, hchunk, Option.filter_some]

/-- Nothing is removed at a path without a document. -/
theorem dropDocuments_of_none {shelf : Shelf} {path : String}
    (h : shelf.documents path = none) : shelf.dropDocuments [path] = shelf := by
  have hpaths : shelf.dropWhere [path].contains = shelf.dropWhere fun _ => false := by
    refine dropWhere_congr fun other hother => ?_
    have hne : other ≠ path := by
      rintro rfl
      simp [h] at hother
    simpa using hne
  rw [dropDocuments, hpaths, dropWhere_false]

/-- Only the paths that have a document need to be listed. -/
theorem dropDocuments_filter {shelf : Shelf} {paths : List String}
    (h : ∀ path, (shelf.documents path).isSome → path ∈ paths) (drop : String → Bool) :
    shelf.dropDocuments (paths.filter drop) = shelf.dropWhere drop := by
  refine dropWhere_congr fun path hpath => ?_
  simp [h path hpath]

/-- Removing one document after the other comes to the same as removing them at once. -/
theorem dropWhere_or (shelf : Shelf) (first second : String → Bool) :
    (shelf.dropWhere first).dropWhere second =
      shelf.dropWhere fun path => first path || second path := by
  ext1
  · funext path
    by_cases h : first path <;> by_cases h' : second path <;> simp [dropWhere, h, h']
  · funext id
    cases hchunk : shelf.chunks id with
    | none => simp [dropWhere, hchunk]
    | some chunk =>
      cases hdocument : shelf.documents chunk.path <;> by_cases h : first chunk.path <;>
        by_cases h' : second chunk.path <;>
        simp [dropWhere, hchunk, hdocument, h, h', Option.filter]

/-! ## Answers -/

/-- The record with which a store answers for a stored document: its list has the chunks that carry
the document's identifier, in order. -/
structure Lists (shelf : Shelf) (stored answered : DocumentRecord) : Prop where
  bare : answered.bare = stored
  ascending : answered.chunkIds.Pairwise (· < ·)
  mem_iff : ∀ id, id ∈ answered.chunkIds ↔
    ∃ chunk, shelf.chunks id = some chunk ∧ chunk.documentId = stored.documentId

/-- The list with which a store answers when it is asked for all documents. -/
structure ListsAll (shelf : Shelf) (answered : List DocumentRecord) : Prop where
  ascending : answered.Pairwise (·.path < ·.path)
  mem_iff : ∀ document, document ∈ answered ↔
    ∃ stored, shelf.documents document.path = some stored ∧ shelf.Lists stored document

/-- The counters with which a store answers. -/
structure Counts (shelf : Shelf) (name : String) (stats : StoreStats) : Prop where
  store : stats.store = name
  documents : ∃ listed, shelf.ListsAll listed ∧ stats.documents = listed.length ∧
    stats.lastIndexedAt = latest? (listed.map (·.indexedAt))
  chunks : ∃ ids : List String, ids.Nodup ∧ (∀ id, id ∈ ids ↔ (shelf.chunks id).isSome) ∧
    stats.chunks = ids.length

theorem Lists.unique {shelf : Shelf} {stored first second : DocumentRecord}
    (h₁ : shelf.Lists stored first) (h₂ : shelf.Lists stored second) : first = second := by
  have hids : first.chunkIds = second.chunkIds := by
    refine h₁.ascending.eq_of_mem_iff h₂.ascending fun id => ?_
    rw [h₁.mem_iff, h₂.mem_iff]
  have hbare : first.bare = second.bare := h₁.bare.trans h₂.bare.symm
  cases first
  cases second
  simp_all [DocumentRecord.bare]

/-- Two answers about a document that may be missing are the same. -/
theorem Lists.rel_unique {shelf : Shelf} {stored first second : Option DocumentRecord}
    (h₁ : Option.Rel shelf.Lists stored first) (h₂ : Option.Rel shelf.Lists stored second) :
    first = second := by
  cases h₁ with
  | none => cases h₂; rfl
  | some hfirst => cases h₂ with
    | some hsecond => rw [hfirst.unique hsecond]

theorem ListsAll.unique {shelf : Shelf} {first second : List DocumentRecord}
    (h₁ : shelf.ListsAll first) (h₂ : shelf.ListsAll second) : first = second := by
  have : Std.Antisymm fun a b : DocumentRecord => a.path < b.path :=
    ⟨fun _ _ hab hba => absurd hba (String.lt_asymm hab)⟩
  have : Std.Irrefl fun a b : DocumentRecord => a.path < b.path := ⟨fun _ => String.lt_irrefl _⟩
  refine h₁.ascending.eq_of_mem_iff h₂.ascending fun document => ?_
  rw [h₁.mem_iff, h₂.mem_iff]

theorem Counts.unique {shelf : Shelf} {name : String} {first second : StoreStats}
    (h₁ : shelf.Counts name first) (h₂ : shelf.Counts name second) : first = second := by
  obtain ⟨listed, hlisted, hdocuments, hlatest⟩ := h₁.documents
  obtain ⟨listed', hlisted', hdocuments', hlatest'⟩ := h₂.documents
  obtain rfl := hlisted.unique hlisted'
  obtain ⟨ids, hids, hmem, hchunks⟩ := h₁.chunks
  obtain ⟨ids', hids', hmem', hchunks'⟩ := h₂.chunks
  have hperm : ids.Perm ids' :=
    (List.perm_ext_iff_of_nodup hids hids').2 fun id => by rw [hmem, hmem']
  have hstore : first.store = second.store := h₁.store.trans h₂.store.symm
  cases first
  cases second
  simp_all [hperm.length_eq]

/-- Everything stands where its record says. -/
structure Keyed (shelf : Shelf) : Prop where
  documents : ∀ path document, shelf.documents path = some document → document.path = path
  chunks : ∀ id chunk, shelf.chunks id = some chunk → chunk.chunkId = id

end Shelf

/-! ## Shelves of a store -/

section Held

variable {σ : Type} [RecordStore σ]

/-- The document at a path, as it can be read out of a store. -/
def documentAt (s : σ) (name path : String) : Option DocumentRecord :=
  match (RecordStore.findDocument name path s).1 with
  | .ok found => found.map .bare
  | .error _ => none

/-- The chunk with an identifier, as it can be read out of a store. -/
def chunkAt (s : σ) (name id : String) : Option ChunkRecord :=
  match (RecordStore.findChunks name [id] s).1 with
  | .ok found => found.head?.map .plain
  | .error _ => none

/-- What can be read out of a store; nothing if there is no store of the name. -/
def held (s : σ) (name : String) : Option Shelf :=
  match (RecordStore.hasStore name s).1 with
  | .ok true => some ⟨documentAt s name, chunkAt s name⟩
  | _ => none

theorem eq_of_held_eq_some {s : σ} {name : String} {shelf : Shelf} (h : held s name = some shelf) :
    shelf = ⟨documentAt s name, chunkAt s name⟩ := by
  unfold held at h
  split at h
  · exact (Option.some.inj h).symm
  · cases h

/-- A call that reads one store: it changes nothing, fails if the store is missing, and otherwise
answers from its shelf. -/
def Reads {α : Type} (Valid : σ → Prop) (name : String) (call : StoreCall σ α)
    (answers : Shelf → α → Prop) : Prop :=
  ∀ s, Valid s → (call s).2 = s ∧
    match held s name with
    | none => (call s).1 = .error (.storeNotFound name)
    | some shelf => ∃ a, (call s).1 = .ok a ∧ answers shelf a

/-- A call that changes one store.  It succeeds on every store that exists if `able` holds, and a
call that does not succeed changes nothing. -/
structure Changes {α : Type} (Valid : σ → Prop) (name : String) (call : StoreCall σ α)
    (change : Shelf → Shelf) (able : Prop := True) : Prop where
  valid : ∀ s, Valid s → Valid (call s).2
  missing : ∀ s, Valid s → held s name = none → held (call s).2 = held s
  refused : ∀ s e, Valid s → (call s).1 = .error e → held (call s).2 = held s
  succeeds : ∀ s shelf, Valid s → held s name = some shelf → able → ∃ a, (call s).1 = .ok a
  taken : ∀ s shelf a, Valid s → held s name = some shelf → (call s).1 = .ok a →
    held (call s).2 = Function.update (held s) name (some (change shelf))

end Held

/-- A store whose calls read and change shelves. -/
class LawfulStore (σ : Type) [RecordStore σ] where
  /-- The states that calls lead to. -/
  Valid : σ → Prop
  /-- Whether a path starts with a text, as the store sees it. -/
  startsWith : (start path : String) → Bool
  /-- Whether a chunk can be written at all. -/
  Fits : ChunkRecord → Prop
  keyed (name : String) (s : σ) (shelf : Shelf) : Valid s → held s name = some shelf → shelf.Keyed
  hasStore (name : String) (s : σ) : Valid s →
    ∃ answer, RecordStore.hasStore name s = (.ok answer, s)
  allStores (s : σ) : Valid s → ∃ names : List String, RecordStore.allStores s = (.ok names, s) ∧
    names.Pairwise (· < ·) ∧ ∀ name, name ∈ names ↔ (held s name).isSome
  createStore (name : String) (s : σ) : Valid s →
    Valid (RecordStore.createStore name s).2 ∧ (RecordStore.createStore name s).1 = .ok () ∧
      held (RecordStore.createStore name s).2 =
        Function.update (held s) name (some ((held s name).getD {}))
  dropStore (name : String) (s : σ) : Valid s →
    Valid (RecordStore.dropStore name s).2 ∧ (RecordStore.dropStore name s).1 = .ok () ∧
      held (RecordStore.dropStore name s).2 = Function.update (held s) name none
  findDocument (name path : String) : Reads Valid name (RecordStore.findDocument name path)
    fun shelf answer => Option.Rel shelf.Lists (shelf.documents path) answer
  allDocuments (name : String) : Reads Valid name (RecordStore.allDocuments name) Shelf.ListsAll
  findChunks (name : String) (ids : List String) :
    Reads Valid name (RecordStore.findChunks name ids)
      fun shelf answer => answer.map ChunkRecord.plain = ids.filterMap shelf.chunks
  stats (name : String) : Reads Valid name (RecordStore.stats name) fun shelf => shelf.Counts name
  putDocument (name : String) (document : DocumentRecord) :
    Changes Valid name (RecordStore.putDocument name document) (·.addDocument document)
  putChunks (name : String) (chunks : List ChunkRecord) :
    Changes Valid name (RecordStore.putChunks name chunks) (·.addChunks chunks)
      (∀ chunk ∈ chunks, Fits chunk)
  dropChunks (name : String) (ids : List String) :
    Changes Valid name (RecordStore.dropChunks name ids) (·.dropChunks ids)
  dropDocuments (name : String) (paths : List String) :
    Changes Valid name (RecordStore.dropDocuments name paths) (·.dropDocuments paths)
  dropDocumentsBelow (name start : String) :
    Changes Valid name (RecordStore.dropDocumentsBelow name start)
      (·.dropWhere (startsWith start))
  clear (name : String) : Changes Valid name (RecordStore.clear name) fun _ => {}

end CodeIndex
