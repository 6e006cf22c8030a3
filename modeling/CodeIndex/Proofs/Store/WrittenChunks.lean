import CodeIndex.Proofs.Store.KeptChunks

/-!
# Written chunks are fetched as they were written

A chunk that was written into a store of a database is fetched with every field as it was written;
only its vector is not kept.  Whatever requests follow, no fetch ever finds anything else under its
identifier, unless a chunk with this identifier is written again.

That nothing else is found is an invariant of the shelves: writing other chunks leaves the
identifier alone, and everything else that is done to a shelf only takes chunks away.

## Main definitions

* `Request.WritesChunk` says that a request writes an identifier.
* `Shelf.NoOther` says that a shelf has nothing but a given chunk under the chunk's identifier.
* `Database.Returns` says that a chunk is fetched as it was written, now and later.

## Main results

* `noOther_after`: requests that do not write the identifier keep the invariant.
* `Database.Valid.returns_of_putChunks`: the chunks of a batch that was written are returned.
-/

namespace CodeIndex

/-- The request writes a chunk with the given identifier into the given store. -/
def Request.WritesChunk (store id : String) : Request → Prop
  | putChunks name chunks => name = store ∧ id ∈ chunks.map (·.chunkId)
  | _ => False

/-! ## Nothing else under an identifier -/

namespace Shelf

variable {stored : ChunkRecord}

/-- Under the identifier of the chunk there is this chunk or nothing. -/
def NoOther (stored : ChunkRecord) (shelf : Shelf) : Prop :=
  ∀ chunk, shelf.chunks stored.chunkId = some chunk → chunk = stored

theorem noOther_empty : NoOther stored {} := by
  intro chunk hchunk
  cases hchunk

theorem NoOther.addChunks {shelf : Shelf} (h : shelf.NoOther stored) {chunks : List ChunkRecord}
    (hid : stored.chunkId ∉ chunks.map (·.chunkId)) : (shelf.addChunks chunks).NoOther stored := by
  intro chunk hchunk
  rw [chunks_addChunks_of_notMem shelf hid] at hchunk
  exact h chunk hchunk

theorem NoOther.dropChunks {shelf : Shelf} (h : shelf.NoOther stored) (ids : List String) :
    (shelf.dropChunks ids).NoOther stored := by
  intro chunk hchunk
  simp only [Shelf.dropChunks] at hchunk
  split at hchunk
  · cases hchunk
  · exact h chunk hchunk

theorem NoOther.dropWhere {shelf : Shelf} (h : shelf.NoOther stored) (drop : String → Bool) :
    (shelf.dropWhere drop).NoOther stored := by
  intro chunk hchunk
  obtain ⟨hchunk, -⟩ := Option.filter_eq_some_iff.1 hchunk
  exact h chunk hchunk

end Shelf

section Requests

variable {shelves : String → Option Shelf} {store : String} {stored : ChunkRecord}

/-- A change of one shelf keeps what holds of the shelf of a store. -/
theorem noOther_update (h : ∀ shelf ∈ shelves store, shelf.NoOther stored) {name : String}
    {f : Shelf → Shelf}
    (hf : name = store → ∀ shelf : Shelf, shelf.NoOther stored → (f shelf).NoOther stored) :
    ∀ shelf ∈ Function.update shelves name ((shelves name).map f) store, shelf.NoOther stored := by
  by_cases hname : name = store
  · subst hname
    intro shelf hshelf
    rw [Function.update_self] at hshelf
    obtain ⟨before, hbefore, rfl⟩ := Option.map_eq_some_iff.1 hshelf
    exact hf rfl before (h before hbefore)
  · rwa [Function.update_of_ne (Ne.symm hname)]

/-- A request that does not write the identifier brings nothing else under it. -/
theorem noOther_effect (startsWith : String → String → Bool)
    (h : ∀ shelf ∈ shelves store, shelf.NoOther stored) {request : Request}
    (hrequest : ¬ request.WritesChunk store stored.chunkId) :
    ∀ shelf ∈ request.effect startsWith shelves store, shelf.NoOther stored := by
  cases request with
  | createStore name =>
    by_cases hname : name = store
    · subst hname
      intro shelf hshelf
      rw [Request.effect, Function.update_self] at hshelf
      obtain rfl := Option.some.inj hshelf
      cases hbefore : shelves name with
      | none => exact Shelf.noOther_empty
      | some before => exact h before hbefore
    · rwa [Request.effect, Function.update_of_ne (Ne.symm hname)]
  | dropStore name =>
    by_cases hname : name = store
    · subst hname
      intro shelf hshelf
      rw [Request.effect, Function.update_self] at hshelf
      cases hshelf
    · rwa [Request.effect, Function.update_of_ne (Ne.symm hname)]
  | putDocument => exact noOther_update h fun _ _ hshelf => hshelf
  | putChunks name chunks =>
    exact noOther_update h fun hname _ hshelf => hshelf.addChunks fun hid => hrequest ⟨hname, hid⟩
  | dropChunks name ids => exact noOther_update h fun _ _ hshelf => hshelf.dropChunks ids
  | dropDocuments name paths => exact noOther_update h fun _ _ hshelf => hshelf.dropWhere _
  | dropDocumentsBelow name start => exact noOther_update h fun _ _ hshelf => hshelf.dropWhere _
  | clear => exact noOther_update h fun _ _ _ => Shelf.noOther_empty
  | hasStore | allStores | findDocument | allDocuments | findChunks | stats => exact h

variable {σ : Type} [RecordStore σ] [LawfulStore σ]

open LawfulStore (Valid)

/-- Nor do any requests that do not write the identifier. -/
theorem noOther_after {s : σ} (hs : Valid s)
    (h : ∀ shelf ∈ held s store, shelf.NoOther stored) (requests : List Request)
    (hrequests : ∀ request ∈ requests, ¬ request.WritesChunk store stored.chunkId) :
    ∀ shelf ∈ held (after requests s) store, shelf.NoOther stored := by
  induction requests generalizing s with
  | nil => exact h
  | cons request rest ih =>
    obtain ⟨hrequest, hrest⟩ := List.forall_mem_cons.1 hrequests
    refine ih (valid_perform hs request) ?_ hrest
    obtain hsame | heffect := held_perform_cases hs request
    · rwa [hsame]
    · rw [heffect]
      exact noOther_effect _ h hrequest

end Requests

/-! ## Fetches from the database -/

namespace Database

/-- The chunk is fetched from the store as it was written, but for its vector.  As long as its
identifier is not written again, nothing else is fetched under this identifier, whatever happens. -/
def Returns (db : Database) (store : String) (chunk : ChunkRecord) : Prop :=
  (RecordStore.findChunks store [chunk.chunkId] db).1 = .ok [chunk.plain] ∧
  ∀ (later : List Request) (ids : List String) (found : List ChunkRecord),
    (∀ request ∈ later, ¬ request.WritesChunk store chunk.chunkId) →
    (RecordStore.findChunks store ids (after later db)).1 = .ok found →
    ∀ fetched ∈ found, fetched.chunkId = chunk.chunkId → fetched = chunk.plain

variable {db : Database} {store : String}

/-- A fetch that succeeds is answered from the shelf of the store. -/
theorem Valid.findChunks_eq_ok_iff (h : db.Valid) {ids : List String}
    {found : List ChunkRecord} :
    (RecordStore.findChunks store ids db).1 = .ok found ↔
      ∃ shelf ∈ held db store, found = ids.filterMap shelf.chunks := by
  by_cases hstore : db.hasStore store = true
  · have hmem : store ∈ db.stores := by simpa [hasStore] using hstore
    simp [findChunks_eq h hstore, held_eq h, hmem, eq_comm]
  · have hmem : store ∉ db.stores := by simpa [hasStore] using hstore
    simp [RecordStore.findChunks, reading, checkStore, hstore, held_eq h, hmem, bind, Except.bind]

/-- A batch whose line numbers fit is written into every store that exists. -/
theorem Valid.putChunks_eq_ok (h : db.Valid)
    (hstore : (RecordStore.hasStore store db).1 = .ok true) {chunks : List ChunkRecord}
    (hfits : ∀ chunk ∈ chunks,
      chunk.startLine ≤ maxColumnValue ∧ chunk.endLine ≤ maxColumnValue) :
    (RecordStore.putChunks store chunks db).1 = .ok () := by
  have hheld := hasStore_eq (σ := Database) h store
  rw [hstore] at hheld
  obtain ⟨shelf, hshelf⟩ := Option.isSome_iff_exists.1 (Except.ok.inj hheld).symm
  obtain ⟨⟨⟩, hanswer⟩ :=
    (LawfulStore.putChunks (σ := Database) store chunks).succeeds db shelf h hshelf hfits
  exact hanswer

/-- What stands on the shelf is returned. -/
theorem Valid.returns (h : db.Valid) {shelf : Shelf} (hheld : held db store = some shelf)
    {chunk : ChunkRecord} (hchunk : shelf.chunks chunk.chunkId = some chunk.plain) :
    db.Returns store chunk := by
  refine ⟨h.findChunks_eq_ok_iff.2 ⟨shelf, hheld, by simp [hchunk]⟩, ?_⟩
  intro later ids found hlater hfound fetched hfetched hid
  have hother : ∀ shelf ∈ held db store, shelf.NoOther chunk.plain := by
    intro shelf hshelf stored hstored
    obtain rfl := Option.some.inj (hheld.symm.trans hshelf)
    exact Option.some.inj (hstored.symm.trans hchunk)
  have hreached : (after later db).Valid := valid_after (σ := Database) h later
  obtain ⟨shelf, hshelf, rfl⟩ := hreached.findChunks_eq_ok_iff.1 hfound
  obtain ⟨key, -, hstored⟩ := List.mem_filterMap.1 hfetched
  have hkey : fetched.chunkId = key :=
    (LawfulStore.keyed (σ := Database) store _ shelf hreached hshelf).chunks key fetched hstored
  rw [← hkey, hid] at hstored
  exact noOther_after (σ := Database) h hother later hlater shelf hshelf fetched hstored

/-- The last chunk with its identifier in a batch that was written is returned. -/
theorem Valid.returns_of_putChunks (h : db.Valid) {before behind : List ChunkRecord}
    {chunk : ChunkRecord} (hlast : chunk.chunkId ∉ behind.map (·.chunkId)) {written : Database}
    (hwrite : RecordStore.putChunks store (before ++ chunk :: behind) db = (.ok (), written)) :
    written.Returns store chunk := by
  have hlaw := LawfulStore.putChunks (σ := Database) store (before ++ chunk :: behind)
  have hstore : db.hasStore store = true := by
    by_contra hmissing
    simp [RecordStore.putChunks, changing, checkStore, hmissing, bind, Except.bind] at hwrite
  have hheld : held db store = some (db.shelf store) := by
    rw [held_eq h, if_pos (hasStore_iff.1 hstore)]
  have hvalid := hlaw.valid db h
  have htaken := hlaw.taken db _ () h hheld (congrArg Prod.fst hwrite)
  rw [hwrite] at hvalid htaken
  refine hvalid.returns ?_ ((db.shelf store).chunks_addChunks_last before hlast)
  rw [htaken, Function.update_self]

end Database

end CodeIndex
