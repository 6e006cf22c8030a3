import Std.Data.TreeMap.Lemmas
import Mathlib.Data.Option.Basic
import CodeIndex.Proofs.Store.Scripted
import CodeIndex.Store.Backend

/-!
# Stores in step

Two stores that differ only in the times at which their documents were written answer the calls of
the index alike, and stay that way when the same is written to both.  So what the index does with a
store does not depend on these times.

## Main definitions

* `Keeps` says that two calls keep a relation between stores and have related answers, and
  `Lockstep` that the calls of the index do.
* `Backend.Alike` relates the backends that differ only in these times.

## Main results

* `Backend.lockstep`: alike backends stay alike.
* `Lockstep.scripted`: so do they when their calls fail by the same script.
-/

namespace CodeIndex

/-- Two documents differ at most in the times at which they were written. -/
structure DocumentRecord.SameVersion (first second : DocumentRecord) : Prop where
  documentId : first.documentId = second.documentId
  path : first.path = second.path
  contentHash : first.contentHash = second.contentHash
  language : first.language = second.language
  chunkIds : first.chunkIds = second.chunkIds

/-- Two answers are both errors, and the same one, or are related. -/
inductive Matches {ε α : Type} (Q : α → α → Prop) : Except ε α → Except ε α → Prop
  | ok {a a' : α} : Q a a' → Matches Q (.ok a) (.ok a')
  | error {e : ε} : Matches Q (.error e) (.error e)

theorem Matches.of_eq {ε α : Type} {answer answer' : Except ε α} (h : answer = answer') :
    Matches Eq answer answer' := by
  subst h
  cases answer with
  | ok a => exact .ok rfl
  | error e => exact .error

theorem Matches.eq {ε α : Type} {answer answer' : Except ε α} (h : Matches Eq answer answer') :
    answer = answer' := by
  cases h with
  | ok h => rw [h]
  | error => rfl

/-- Two calls lead related states to related states, and their answers are related. -/
def Keeps {σ α : Type} (R : σ → σ → Prop) (Q : α → α → Prop) (call call' : StoreCall σ α) : Prop :=
  ∀ s s', R s s' → Matches Q (call s).1 (call' s').1 ∧ R (call s).2 (call' s').2

/-- The calls that the index makes keep a relation between stores. -/
structure Lockstep {σ : Type} [RecordStore σ] (R : σ → σ → Prop) : Prop where
  hasStore (name : String) : Keeps R Eq (RecordStore.hasStore name) (RecordStore.hasStore name)
  findDocument (name path : String) : Keeps R (Option.Rel DocumentRecord.SameVersion)
    (RecordStore.findDocument name path) (RecordStore.findDocument name path)
  findChunks (name : String) (ids : List String) :
    Keeps R Eq (RecordStore.findChunks name ids) (RecordStore.findChunks name ids)
  dropDocuments (name : String) (paths : List String) :
    Keeps R Eq (RecordStore.dropDocuments name paths) (RecordStore.dropDocuments name paths)
  dropChunks (name : String) (ids : List String) :
    Keeps R Eq (RecordStore.dropChunks name ids) (RecordStore.dropChunks name ids)
  putChunks (name : String) (chunks : List ChunkRecord) :
    Keeps R Eq (RecordStore.putChunks name chunks) (RecordStore.putChunks name chunks)
  putDocument (name : String) {document document' : DocumentRecord} :
    document.SameVersion document' →
    Keeps R Eq (RecordStore.putDocument name document) (RecordStore.putDocument name document')

/-! ## In memory -/

namespace Collection

/-- Two collections differ at most in the times of their documents. -/
structure Alike (col col' : Collection) : Prop where
  documents : ∀ path : String,
    Option.Rel DocumentRecord.SameVersion col.documents[path]? col'.documents[path]?
  chunks : col.chunks = col'.chunks
  byDocument : col.byDocument = col'.byDocument
  byPath : col.byPath = col'.byPath

namespace Alike

variable {col col' : Collection}

theorem listed (h : col.Alike col') {document document' : DocumentRecord}
    (hsame : document.SameVersion document') :
    (col.listed document).SameVersion (col'.listed document') where
  documentId := hsame.documentId
  path := hsame.path
  contentHash := hsame.contentHash
  language := hsame.language
  chunkIds := by simp only [Collection.listed, h.byDocument, hsame.documentId]

theorem addDocument (h : col.Alike col') {document document' : DocumentRecord}
    (hsame : document.SameVersion document') :
    (col.addDocument document).Alike (col'.addDocument document') where
  documents path := by
    simp only [Collection.addDocument, Std.TreeMap.getElem?_insert, hsame.path]
    split
    · exact .some ⟨hsame.documentId, rfl, hsame.contentHash, hsame.language, rfl⟩
    · exact h.documents path
  chunks := h.chunks
  byDocument := h.byDocument
  byPath := h.byPath

theorem addChunk (h : col.Alike col') (chunk : ChunkRecord) :
    (col.addChunk chunk).Alike (col'.addChunk chunk) := by
  obtain ⟨hdocuments, hchunks, hbyDocument, hbyPath⟩ := h
  unfold Collection.addChunk
  rw [hchunks, hbyDocument, hbyPath]
  cases col'.chunks[chunk.chunkId]? with
  | none => exact ⟨hdocuments, rfl, rfl, rfl⟩
  | some previous => exact ⟨hdocuments, rfl, rfl, rfl⟩

theorem dropChunk (h : col.Alike col') (id : String) :
    (col.dropChunk id).Alike (col'.dropChunk id) := by
  unfold Collection.dropChunk
  rw [h.chunks, h.byDocument, h.byPath]
  cases col'.chunks[id]? with
  | none => exact h
  | some chunk => exact ⟨h.documents, rfl, rfl, rfl⟩

/-- Changes of a collection, one after the other. -/
theorem foldl {α : Type} {change : Collection → α → Collection}
    (hchange : ∀ {col col' : Collection} (a : α), col.Alike col' →
      (change col a).Alike (change col' a)) (items : List α) (h : col.Alike col') :
    (items.foldl change col).Alike (items.foldl change col') := by
  induction items generalizing col col' with
  | nil => exact h
  | cons a rest ih => exact ih (hchange a h)

theorem contains (h : col.Alike col') (path : String) :
    col.documents.contains path = col'.documents.contains path := by
  rw [Std.TreeMap.contains_eq_isSome_getElem?, Std.TreeMap.contains_eq_isSome_getElem?]
  have hpath := h.documents path
  generalize col.documents[path]? = found, col'.documents[path]? = found' at hpath
  cases hpath <;> rfl

/-- Changes that are counted, one after the other. -/
theorem foldl_prod {α β : Type} {change : β × Collection → α → β × Collection}
    (hchange : ∀ {b : β} {col col' : Collection} (a : α), col.Alike col' →
      (change (b, col) a).1 = (change (b, col') a).1 ∧
        (change (b, col) a).2.Alike (change (b, col') a).2) (items : List α) {b : β}
    (h : col.Alike col') :
    (items.foldl change (b, col)).1 = (items.foldl change (b, col')).1 ∧
      (items.foldl change (b, col)).2.Alike (items.foldl change (b, col')).2 := by
  induction items generalizing b col col' with
  | nil => exact ⟨rfl, h⟩
  | cons a rest ih =>
    obtain ⟨hanswer, hafter⟩ := hchange (b := b) a h
    rw [List.foldl_cons, List.foldl_cons]
    generalize change (b, col) a = made, change (b, col') a = made' at hanswer hafter
    obtain ⟨b₁, col₁⟩ := made
    obtain ⟨b₂, col₂⟩ := made'
    obtain rfl : b₁ = b₂ := hanswer
    exact ih hafter

theorem dropChunks (h : col.Alike col') (ids : List String) :
    (col.dropChunks ids).1 = (col'.dropChunks ids).1 ∧
      (col.dropChunks ids).2.Alike (col'.dropChunks ids).2 := by
  refine foldl_prod (fun {count col col'} id h => ⟨?_, h.dropChunk id⟩) ids h
  simp only [h.chunks]

theorem dropDocument (h : col.Alike col') (removed : RemovedDocuments) (path : String) :
    (col.dropDocument removed path).1 = (col'.dropDocument removed path).1 ∧
      (col.dropDocument removed path).2.Alike (col'.dropDocument removed path).2 := by
  unfold Collection.dropDocument
  rw [h.contains path, h.byPath]
  split
  · refine ⟨rfl, foldl (fun id h => h.dropChunk id) _ ⟨fun other => ?_, h.chunks, h.byDocument, ?_⟩⟩
    · simp only [Std.TreeMap.getElem?_erase]
      split
      · exact .none
      · exact h.documents other
    · rfl
  · exact ⟨rfl, h⟩

theorem dropDocuments (h : col.Alike col') (paths : List String) :
    (col.dropDocuments paths).1 = (col'.dropDocuments paths).1 ∧
      (col.dropDocuments paths).2.Alike (col'.dropDocuments paths).2 :=
  foldl_prod (fun {removed _ _} path h => h.dropDocument removed path) paths h

end Alike

end Collection

namespace MemoryStore

/-- Two stores have alike collections. -/
def Alike (m m' : MemoryStore) : Prop :=
  ∀ name : String, Option.Rel Collection.Alike m.stores[name]? m'.stores[name]?

theorem keeps_reading {α : Type} {Q : α → α → Prop} {name : String} {read : Collection → α}
    (hread : ∀ col col', Collection.Alike col col' → Q (read col) (read col')) :
    Keeps Alike Q (reading name read) (reading name read) := by
  intro m m' h
  have hname := h name
  unfold reading
  generalize m.stores[name]? = col, m'.stores[name]? = col' at hname
  cases hname with
  | none => exact ⟨.error, h⟩
  | some hcol => exact ⟨.ok (hread _ _ hcol), h⟩

theorem keeps_changing {α : Type} {name : String} {change change' : Collection → α × Collection}
    (hchange : ∀ col col', Collection.Alike col col' →
      (change col).1 = (change' col').1 ∧ (change col).2.Alike (change' col').2) :
    Keeps Alike Eq (changing name change) (changing name change') := by
  intro m m' h
  have hname := h name
  unfold changing
  generalize m.stores[name]? = col, m'.stores[name]? = col' at hname
  cases hname with
  | none => exact ⟨.error, h⟩
  | some hcol =>
    obtain ⟨hanswer, hafter⟩ := hchange _ _ hcol
    refine ⟨.ok hanswer, fun other => ?_⟩
    simp only [Std.TreeMap.getElem?_insert]
    split
    · exact .some hafter
    · exact h other

theorem lockstep : Lockstep Alike where
  hasStore name m m' h := by
    refine ⟨.of_eq (congrArg Except.ok ?_), h⟩
    rw [Std.TreeMap.contains_eq_isSome_getElem?, Std.TreeMap.contains_eq_isSome_getElem?]
    have hname := h name
    generalize m.stores[name]? = col, m'.stores[name]? = col' at hname
    cases hname <;> rfl
  findDocument name path := keeps_reading fun col col' h => by
    have hpath := h.documents path
    generalize col.documents[path]? = found, col'.documents[path]? = found' at hpath
    cases hpath with
    | none => exact .none
    | some hsame => exact .some (h.listed hsame)
  findChunks name ids := keeps_reading fun col col' h => by rw [h.chunks]
  dropDocuments name paths := keeps_changing fun _ _ h => h.dropDocuments paths
  dropChunks name ids m m' h := by
    have hcall : ∀ m : MemoryStore, RecordStore.dropChunks name ids m =
        if ids.isEmpty then (.ok 0, m) else changing name (·.dropChunks ids) m := fun _ => rfl
    rw [hcall, hcall]
    split
    · exact ⟨.ok rfl, h⟩
    · exact keeps_changing (fun _ _ h => h.dropChunks ids) m m' h
  putChunks name chunks := keeps_changing fun _ _ h =>
    ⟨rfl, h.foldl (fun chunk h => h.addChunk chunk) chunks⟩
  putDocument name _ _ hsame := keeps_changing fun _ _ h => ⟨rfl, h.addDocument hsame⟩

end MemoryStore

/-! ## In a database -/

/-- The row of a document without the time at which it was written. -/
def DocumentRow.timeless (row : DocumentRow) : DocumentRow := { row with indexedAt := 0 }

namespace Database

/-- The database without the times of its documents. -/
def timeless (db : Database) : Database := { db with documents := db.documents.map .timeless }

/-- Two databases differ at most in the times of their documents. -/
def Alike (db db' : Database) : Prop := db.timeless = db'.timeless

variable {db db' : Database} {store path : String} {α : Type}

/-- What does not depend on the times is the same. -/
theorem Alike.eq {β : Type} (h : Alike db db') (f : Database → β)
    (hf : ∀ db, f db.timeless = f db) : f db = f db' := by
  rw [← hf db, ← hf db', show db.timeless = db'.timeless from h]

theorem any_timeless : db.timeless.documents.any (isDocument store path) =
    db.documents.any (isDocument store path) := List.any_map

theorem find?_timeless : db.timeless.documents.find? (isDocument store path) =
    (db.documents.find? (isDocument store path)).map .timeless := List.find?_map

theorem dropDocumentRows_timeless :
    db.timeless.dropDocumentRows (isDocument store path) =
      (db.dropDocumentRows (isDocument store path)).timeless := by
  simp only [dropDocumentRows, timeless, List.filter_map]
  rfl

theorem dropChunkRows_timeless (drop : ChunkRow → Bool) :
    db.timeless.dropChunkRows drop = (db.dropChunkRows drop).timeless := rfl

theorem addChunk_timeless (chunk : ChunkRecord) :
    db.timeless.addChunk store chunk = (db.addChunk store chunk).timeless := by
  have hfind : db.timeless.chunks.find? (isChunk store chunk.chunkId) =
      db.chunks.find? (isChunk store chunk.chunkId) := rfl
  unfold addChunk
  rw [hfind]
  cases db.chunks.find? (isChunk store chunk.chunkId) <;> rfl

theorem addChunks_timeless (chunks : List ChunkRecord) :
    addChunks store chunks db.timeless = (addChunks store chunks db).map timeless := by
  induction chunks generalizing db with
  | nil => rfl
  | cons chunk rest ih =>
    unfold addChunks
    split
    · rfl
    · rw [addChunk_timeless, ih]

theorem removalsOf_timeless (paths : List String) :
    db.timeless.removalsOf store paths = db.removalsOf store paths := by
  simp only [removalsOf, any_timeless]
  rfl

theorem dropPaths_timeless (paths : List String) :
    db.timeless.dropPaths store paths =
      ((db.dropPaths store paths).1, (db.dropPaths store paths).2.timeless) := by
  simp only [dropPaths, removalsOf_timeless]
  refine congrArg (Prod.mk _) ?_
  generalize (db.removalsOf store paths).paths = removed
  induction removed generalizing db with
  | nil => rfl
  | cons path rest ih =>
    rw [List.foldl_cons, List.foldl_cons, ← ih, dropChunkRows_timeless, dropDocumentRows_timeless]

theorem dropChunks_timeless (ids : List String) :
    db.timeless.dropChunks store ids =
      ((db.dropChunks store ids).1, (db.dropChunks store ids).2.timeless) := by
  unfold dropChunks
  generalize 0 = count
  induction ids generalizing db count with
  | nil => rfl
  | cons id rest ih =>
    rw [List.foldl_cons, List.foldl_cons]
    simp only [dropChunkRows_timeless]
    exact ih _

theorem addDocument_timeless (document : DocumentRecord) :
    (db.addDocument store document).timeless =
      db.timeless.addDocument store { document with indexedAt := 0 } := by
  unfold addDocument
  rw [any_timeless]
  split
  · refine congrArg (fun documents => { db with documents }) ?_
    simp only [timeless, List.map_map]
    refine List.map_congr_left fun row _ => ?_
    have hrow : isDocument store document.path row.timeless =
        isDocument store document.path row := rfl
    simp only [Function.comp_apply, hrow]
    split <;> rfl
  · simp only [timeless, List.map_append]
    rfl

theorem keeps_reading {Q : α → α → Prop} {read : Database → Except StoreError α}
    (hread : ∀ db db', Alike db db' → Matches Q (read db) (read db')) :
    Keeps Alike Q (reading store read) (reading store read) := by
  intro db db' h
  have hstore : db.checkStore store = db'.checkStore store :=
    h.eq (·.checkStore store) fun _ => rfl
  refine ⟨?_, h⟩
  unfold reading
  rw [hstore]
  cases db'.checkStore store with
  | ok _ => exact hread db db' h
  | error e => exact .error

/-- A change that does not depend on the times. -/
theorem keeps_changing {change change' : Database → Except StoreError (α × Database)}
    (hchange : ∀ db db', Alike db db' →
      (change db).map (Prod.map id timeless) = (change' db').map (Prod.map id timeless)) :
    Keeps Alike Eq (changing store change) (changing store change') := by
  intro db db' h
  have hstore : db.checkStore store = db'.checkStore store :=
    h.eq (·.checkStore store) fun _ => rfl
  have hmade := hchange db db' h
  unfold changing
  rw [hstore]
  cases db'.checkStore store with
  | error e => exact ⟨.error, h⟩
  | ok _ =>
    simp only [bind, Except.bind]
    generalize change db = made, change' db' = made' at hmade
    cases made with
    | error e =>
      cases made' with
      | error e' =>
        obtain rfl := Except.error.inj hmade
        exact ⟨.error, h⟩
      | ok _ => cases hmade
    | ok made =>
      cases made' with
      | error _ => cases hmade
      | ok made' =>
        obtain ⟨hanswer, hafter⟩ := Prod.mk.inj (Except.ok.inj hmade)
        exact ⟨.ok hanswer, hafter⟩

theorem lockstep : Lockstep Alike where
  hasStore name db db' h :=
    ⟨.of_eq (h.eq (fun db => (RecordStore.hasStore name db).1) fun _ => rfl), h⟩
  findDocument name path := keeps_reading fun db db' h => by
    have hfound : (db.documents.find? (isDocument name path)).map DocumentRow.timeless =
        (db'.documents.find? (isDocument name path)).map DocumentRow.timeless := by
      rw [← find?_timeless, ← find?_timeless, show db.timeless = db'.timeless from h]
    have hchunks : db.chunks = db'.chunks := h.eq chunks fun _ => rfl
    generalize db.documents.find? (isDocument name path) = row,
      db'.documents.find? (isDocument name path) = row' at hfound
    cases row with
    | none =>
      cases row' with
      | none => exact .ok .none
      | some _ => cases hfound
    | some row =>
      cases row' with
      | none => cases hfound
      | some row' =>
        simp only [Option.map_some, Option.some.injEq, DocumentRow.timeless,
          DocumentRow.mk.injEq] at hfound
        obtain ⟨hstore, hpath, hid, hhash, hlanguage, -⟩ := hfound
        refine .ok (.some ⟨hid, hpath, hhash, hlanguage, ?_⟩)
        simp only [documentOf, chunkIdsWhere, hchunks, hid, hstore]
  findChunks name ids := keeps_reading fun db db' h => by
    have hchunk : db.chunk? name = db'.chunk? name := h.eq (·.chunk? name) fun _ => rfl
    rw [hchunk]
    exact .of_eq rfl
  dropDocuments name paths := keeps_changing fun db db' h => by
    have hmade := congrArg (·.dropPaths name paths) (show db.timeless = db'.timeless from h)
    simp only [dropPaths_timeless] at hmade
    exact congrArg Except.ok hmade
  dropChunks name ids := keeps_changing fun db db' h => by
    have hmade := congrArg (·.dropChunks name ids) (show db.timeless = db'.timeless from h)
    simp only [dropChunks_timeless] at hmade
    exact congrArg Except.ok hmade
  putChunks name chunks := keeps_changing fun db db' h => by
    have hmade := congrArg (addChunks name chunks) (show db.timeless = db'.timeless from h)
    rw [addChunks_timeless, addChunks_timeless] at hmade
    have hpair : ∀ made : Except StoreError Database,
        (made.map fun db => ((), db)).map (Prod.map id timeless) =
          (made.map timeless).map fun db => ((), db) := by
      intro made
      cases made <;> rfl
    rw [hpair, hpair, hmade]
  putDocument name document document' hsame := keeps_changing fun db db' h => by
    refine congrArg (fun db => Except.ok ((), db)) ?_
    rw [addDocument_timeless, addDocument_timeless, show db.timeless = db'.timeless from h]
    simp only [addDocument, hsame.path, hsame.documentId, hsame.contentHash, hsame.language]

end Database

/-! ## Beside a vector service -/

namespace VectorStore

/-- Two stores have alike databases. -/
def Alike (s s' : VectorStore) : Prop := s.records.Alike s'.records

variable {α : Type} {Q : α → α → Prop} {store : String} {call call' : StoreCall Database α}

theorem keeps_inRecords (h : Keeps Database.Alike Q call call') :
    Keeps Alike Q (inRecords call) (inRecords call') :=
  fun s s' hs => h s.records s'.records hs

theorem keeps_afterService {part : Database → Except StoreError Unit}
    (hpart : ∀ db db', Database.Alike db db' → part db = part db')
    (h : Keeps Database.Alike Q call call') :
    Keeps Alike Q (afterService store part call) (afterService store part call') := by
  intro s s' hs
  have hstore : s.records.checkStore store = s'.records.checkStore store :=
    hs.eq (·.checkStore store) fun _ => rfl
  unfold afterService
  rw [hstore, hpart _ _ hs]
  split
  · exact ⟨.error, hs⟩
  · exact keeps_inRecords h s s' hs

theorem lockstep : Lockstep Alike where
  hasStore name := keeps_inRecords (Database.lockstep.hasStore name)
  findDocument name path := keeps_inRecords (Database.lockstep.findDocument name path)
  findChunks name ids := keeps_inRecords (Database.lockstep.findChunks name ids)
  dropDocuments name paths s s' hs := by
    have hpending : s.records.removalsOf name paths = s'.records.removalsOf name paths :=
      hs.eq (·.removalsOf name paths) fun _ => Database.removalsOf_timeless paths
    have hcall : ∀ s : VectorStore, RecordStore.dropDocuments name paths s =
        afterService name
          (fun _ => askToForget (s.records.removalsOf name paths).chunkIds)
          (RecordStore.dropDocuments name (s.records.removalsOf name paths).paths) s :=
      fun _ => rfl
    rw [hcall, hcall, hpending]
    exact keeps_afterService (fun _ _ _ => rfl) (Database.lockstep.dropDocuments name _) s s' hs
  dropChunks name ids :=
    keeps_afterService (fun _ _ _ => rfl) (Database.lockstep.dropChunks name ids)
  putChunks name chunks :=
    keeps_afterService (fun _ _ _ => rfl) (Database.lockstep.putChunks name chunks)
  putDocument name _ _ hsame := keeps_inRecords (Database.lockstep.putDocument name hsame)

end VectorStore

/-! ## Backends -/

namespace Backend

/-- Two backends are of one kind and alike. -/
inductive Alike : Backend → Backend → Prop
  | memory {s s' : MemoryStore} : s.Alike s' → Alike (.memory s) (.memory s')
  | relational {s s' : Database} : s.Alike s' → Alike (.relational s) (.relational s')
  | vector {s s' : VectorStore} : s.Alike s' → Alike (.vector s) (.vector s')

theorem keeps_dispatch {α : Type} {Q : α → α → Prop}
    {call call' : (σ : Type) → [RecordStore σ] → StoreCall σ α}
    (hmemory : Keeps MemoryStore.Alike Q (call MemoryStore) (call' MemoryStore))
    (hrelational : Keeps Database.Alike Q (call Database) (call' Database))
    (hvector : Keeps VectorStore.Alike Q (call VectorStore) (call' VectorStore)) :
    Keeps Alike Q (dispatch call) (dispatch call') := by
  intro b b' h
  cases h with
  | memory h => exact ⟨(hmemory _ _ h).1, .memory (hmemory _ _ h).2⟩
  | relational h => exact ⟨(hrelational _ _ h).1, .relational (hrelational _ _ h).2⟩
  | vector h => exact ⟨(hvector _ _ h).1, .vector (hvector _ _ h).2⟩

theorem lockstep : Lockstep Alike where
  hasStore name := keeps_dispatch (MemoryStore.lockstep.hasStore name)
    (Database.lockstep.hasStore name) (VectorStore.lockstep.hasStore name)
  findDocument name path := keeps_dispatch (MemoryStore.lockstep.findDocument name path)
    (Database.lockstep.findDocument name path) (VectorStore.lockstep.findDocument name path)
  findChunks name ids := keeps_dispatch (MemoryStore.lockstep.findChunks name ids)
    (Database.lockstep.findChunks name ids) (VectorStore.lockstep.findChunks name ids)
  dropDocuments name paths := keeps_dispatch (MemoryStore.lockstep.dropDocuments name paths)
    (Database.lockstep.dropDocuments name paths) (VectorStore.lockstep.dropDocuments name paths)
  dropChunks name ids := keeps_dispatch (MemoryStore.lockstep.dropChunks name ids)
    (Database.lockstep.dropChunks name ids) (VectorStore.lockstep.dropChunks name ids)
  putChunks name chunks := keeps_dispatch (MemoryStore.lockstep.putChunks name chunks)
    (Database.lockstep.putChunks name chunks) (VectorStore.lockstep.putChunks name chunks)
  putDocument name {document document'} hsame :=
    @keeps_dispatch _ _ (fun _ => RecordStore.putDocument name document)
      (fun _ => RecordStore.putDocument name document')
      (MemoryStore.lockstep.putDocument name hsame) (Database.lockstep.putDocument name hsame)
      (VectorStore.lockstep.putDocument name hsame)

theorem alike_refl (b : Backend) : Alike b b := by
  cases b with
  | memory s =>
    refine .memory fun name => ?_
    cases s.stores[name]? with
    | none => exact .none
    | some col =>
      refine .some ⟨fun path => ?_, rfl, rfl, rfl⟩
      cases col.documents[path]? with
      | none => exact .none
      | some document => exact .some ⟨rfl, rfl, rfl, rfl, rfl⟩
  | relational s => exact .relational rfl
  | vector s => exact .vector rfl

/-- Looking a document up changes nothing. -/
theorem snd_findDocument (name path : String) (b : Backend) :
    (RecordStore.findDocument name path b).2 = b := by
  cases b with
  | memory s =>
    show Backend.memory (MemoryStore.reading name _ s).2 = _
    unfold MemoryStore.reading
    cases s.stores[name]? <;> rfl
  | relational s => rfl
  | vector s => rfl

end Backend

/-! ## Failing calls -/

namespace ScriptedStore

/-- Two stores are related, have made the same number of calls by the same script, and equally many
of them have failed. -/
structure Alike {σ : Type} (R : σ → σ → Prop) (s s' : ScriptedStore σ) : Prop where
  store : R s.store s'.store
  script : s.script = s'.script
  calls : s.calls = s'.calls
  failures : s.failures = s'.failures

theorem keeps_scripted {σ α : Type} {R : σ → σ → Prop} {Q : α → α → Prop}
    {call call' : StoreCall σ α} (h : Keeps R Q call call') (method : Method) :
    Keeps (Alike R) Q (scripted method call) (scripted method call') := by
  intro s s' hs
  obtain ⟨hmatches, hstore⟩ := h s.store s'.store hs.store
  have hjudged : Matches Q (judged (s.script s.calls method) call s.store).1
        (judged (s.script s.calls method) call' s'.store).1 ∧
      R (judged (s.script s.calls method) call s.store).2
        (judged (s.script s.calls method) call' s'.store).2 := by
    unfold judged
    generalize call s.store = made, call' s'.store = made' at hmatches hstore
    obtain ⟨answer, after⟩ := made
    obtain ⟨answer', after'⟩ := made'
    cases s.script s.calls method with
    | passes => exact ⟨hmatches, hstore⟩
    | failsBefore e => exact ⟨.error, hs.store⟩
    | failsAfter e => cases hmatches <;> exact ⟨.error, hstore⟩
  unfold scripted
  rw [← hs.script, ← hs.calls, ← hs.failures]
  generalize judged (s.script s.calls method) call s.store = made,
    judged (s.script s.calls method) call' s'.store = made' at hjudged
  obtain ⟨answer, after⟩ := made
  obtain ⟨answer', after'⟩ := made'
  obtain ⟨hanswer, hafter⟩ := hjudged
  cases hanswer with
  | ok hQ => exact ⟨.ok hQ, hafter, rfl, rfl, rfl⟩
  | error => exact ⟨.error, hafter, rfl, rfl, rfl⟩

end ScriptedStore

/-- Stores in step stay in step when their calls fail by the same script. -/
theorem Lockstep.scripted {σ : Type} [RecordStore σ] {R : σ → σ → Prop} (h : Lockstep R) :
    Lockstep (ScriptedStore.Alike R) where
  hasStore name := ScriptedStore.keeps_scripted (h.hasStore name) .hasStore
  findDocument name path := ScriptedStore.keeps_scripted (h.findDocument name path) .findDocument
  findChunks name ids := ScriptedStore.keeps_scripted (h.findChunks name ids) .findChunks
  dropDocuments name paths :=
    ScriptedStore.keeps_scripted (h.dropDocuments name paths) .dropDocuments
  dropChunks name ids := ScriptedStore.keeps_scripted (h.dropChunks name ids) .dropChunks
  putChunks name chunks := ScriptedStore.keeps_scripted (h.putChunks name chunks) .putChunks
  putDocument name _ _ hsame := ScriptedStore.keeps_scripted (h.putDocument name hsame) .putDocument

end CodeIndex
