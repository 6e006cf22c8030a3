import CodeIndex.Proofs.Store.Isolation
import CodeIndex.Proofs.Store.LexicalSearch

/-!
# Fetching the chunks that are kept

The chunks of a store are entries of a map or rows of a table.  A fetch answers with the chunks
that are kept under the identifiers it is given, in their order, and leaves out the others.  That
an identifier finds the chunk that carries it, and that there is only one, is an invariant of the
calls, so it is proved of the states that calls lead to.

## Main definitions

* `Backend.KeepsChunk` reads the chunks of a store off the data of a backend.
* `Backend.Reached` are the states that histories of calls lead to.
* `Fetches` says that a fetch answers with the chunks that are kept.

## Main results

* `Backend.reached_after`: every history of a fresh backend leads to such a state.
* `Backend.Reached.fetches`: its fetches answer with the chunks that are kept.
-/

namespace CodeIndex

/-! ## What is kept -/

/-- A map keeps a chunk, whatever it stands under. -/
def MemoryStore.KeepsChunk (m : MemoryStore) (store : String) (chunk : ChunkRecord) : Prop :=
  ∃ (col : Collection) (key : String), m.stores[store]? = some col ∧ col.chunks[key]? = some chunk

/-- A table keeps a chunk: one of its rows denotes it. -/
def Database.KeepsChunk (db : Database) (store : String) (chunk : ChunkRecord) : Prop :=
  ∃ row ∈ db.chunks, row.store = store ∧ row.record = .ok chunk

/-- A backend keeps a chunk in a store. -/
def Backend.KeepsChunk : Backend → String → ChunkRecord → Prop
  | .memory m => m.KeepsChunk
  | .relational db => db.KeepsChunk
  | .vector s => s.records.KeepsChunk

/-! ## What is fetched -/

/-- A fetch from a store fails because there is no such store, or it answers with the chunks that
the store keeps under the given identifiers, in their order. -/
def Fetches {σ : Type} [RecordStore σ] (s : σ) (store : String) (keeps : ChunkRecord → Prop) :
    Prop :=
  (∀ ids, RecordStore.findChunks store ids s = (.error (.storeNotFound store), s)) ∨
  ∃ kept : String → Option ChunkRecord,
    (∀ ids, RecordStore.findChunks store ids s = (.ok (ids.filterMap kept), s)) ∧
    ∀ id chunk, kept id = some chunk ↔ keeps chunk ∧ chunk.chunkId = id

/-- A store that passes fetches on to a store inside fetches what that store does. -/
theorem Fetches.lift {σ τ : Type} [RecordStore σ] [RecordStore τ] {s : σ} {wrap : σ → τ}
    {store : String} {keeps : ChunkRecord → Prop} (h : Fetches s store keeps)
    (hwrap : ∀ ids, RecordStore.findChunks store ids (wrap s) =
      ((RecordStore.findChunks store ids s).1, wrap (RecordStore.findChunks store ids s).2)) :
    Fetches (wrap s) store keeps := by
  obtain hmissing | ⟨kept, hkept, hkeeps⟩ := h
  · exact .inl fun ids => by rw [hwrap, hmissing]
  · exact .inr ⟨kept, fun ids => by rw [hwrap, hkept], hkeeps⟩

theorem MemoryStore.Valid.fetches {m : MemoryStore} (h : m.Valid) (store : String) :
    Fetches m store (m.KeepsChunk store) := by
  cases hcol : m.stores[store]? with
  | none =>
    refine .inl fun ids => ?_
    simp only [RecordStore.findChunks, reading, hcol]
  | some col =>
    refine .inr ⟨fun id => col.chunks[id]?, fun ids => ?_, fun id chunk => ⟨fun hkept => ?_, ?_⟩⟩
    · simp only [RecordStore.findChunks, reading, hcol]
    · exact ⟨⟨col, id, hcol, hkept⟩, (h store col hcol).chunks id chunk hkept⟩
    · rintro ⟨⟨col', key, hcol', hkept⟩, rfl⟩
      obtain rfl := Option.some.inj (hcol.symm.trans hcol')
      have hkey := (h store col hcol).chunks key chunk hkept
      rwa [← hkey] at hkept

theorem Database.Valid.keepsChunk_iff {db : Database} (h : db.Valid) {store : String}
    {chunk : ChunkRecord} :
    db.KeepsChunk store chunk ↔ (db.shelf store).chunks chunk.chunkId = some chunk := by
  rw [h.chunks_shelf]
  constructor
  · rintro ⟨row, hrow, hstore, hrecord⟩
    rw [ChunkRow.record_eq_ok (h.readable row hrow)] at hrecord
    obtain rfl := Except.ok.inj hrecord
    exact ⟨row, hrow, hstore, rfl, rfl⟩
  · rintro ⟨row, hrow, hstore, -, rfl⟩
    exact ⟨row, hrow, hstore, ChunkRow.record_eq_ok (h.readable row hrow)⟩

theorem Database.Valid.fetches {db : Database} (h : db.Valid) (store : String) :
    Fetches db store (db.KeepsChunk store) := by
  by_cases hstore : db.hasStore store = true
  · refine .inr ⟨(db.shelf store).chunks, fun ids => Prod.ext (findChunks_eq h hstore ids) rfl,
      fun id chunk => ⟨fun hkept => ?_, ?_⟩⟩
    · have hid := (h.keyed_shelf store).chunks id chunk hkept
      refine ⟨h.keepsChunk_iff.2 ?_, hid⟩
      rwa [hid]
    · rintro ⟨hkeeps, rfl⟩
      exact h.keepsChunk_iff.1 hkeeps
  · refine .inl fun ids => Prod.ext ?_ rfl
    simp [RecordStore.findChunks, reading, checkStore, hstore, bind, Except.bind]

theorem MemoryStore.valid_after_empty (requests : List Request) :
    (after requests ({} : MemoryStore)).Valid :=
  valid_after (show LawfulStore.Valid ({} : MemoryStore) from valid_empty) requests

theorem Database.valid_after_empty (requests : List Request) :
    (after requests ({} : Database)).Valid :=
  valid_after (show LawfulStore.Valid ({} : Database) from valid_empty) requests

namespace Backend

theorem fetches_wrap {σ : Type} [RecordStore σ] {wrap : σ → Backend} (hwrap : Wraps wrap) {s : σ}
    {store : String} {keeps : ChunkRecord → Prop} (h : Fetches s store keeps) :
    Fetches (wrap s) store keeps :=
  h.lift fun ids => hwrap _ (fun _ => RecordStore.findChunks store ids) s

/-! ## The states of backends -/

/-- The states that histories lead to.  The database beside a vector service may have any history
of a database, as if the service had answered all along. -/
inductive Reached : Backend → Prop
  | memory (requests : List Request) : Reached (.memory (after requests {}))
  | relational (requests : List Request) : Reached (.relational (after requests {}))
  | vector (requests : List Request) : Reached (.vector { records := after requests {} })

theorem after_wrap {σ : Type} [RecordStore σ] {wrap : σ → Backend} (hwrap : Wraps wrap)
    (requests : List Request) (s : σ) : after requests (wrap s) = wrap (after requests s) := by
  induction requests generalizing s with
  | nil => rfl
  | cons request rest ih =>
    have hstep : after (request :: rest) (wrap s) = after rest (perform request (wrap s)).2 := rfl
    rw [hstep, perform_wrap hwrap]
    exact ih _

/-- The database beside a service that does not answer has the history of the calls that were let
through. -/
theorem exists_records_after (requests : List Request) (s : VectorStore) :
    ∃ passed, (after requests s).records = after passed s.records := by
  induction requests generalizing s with
  | nil => exact ⟨[], rfl⟩
  | cons request rest ih =>
    obtain ⟨passed, hpassed⟩ := ih (perform request s).2
    obtain hsame | hrecords := VectorStore.snd_perform_cases request s
    · rw [hsame] at hpassed
      refine ⟨passed, ?_⟩
      have hstep : after (request :: rest) s = after rest (perform request s).2 := rfl
      rw [hstep, hsame, hpassed]
    · rw [hrecords] at hpassed
      exact ⟨request :: passed, hpassed⟩

theorem reached_after (kind : BackendKind) (requests : List Request) :
    Reached (after requests (fresh kind)) := by
  cases kind with
  | memory =>
    rw [fresh, after_wrap wraps_memory]
    exact .memory requests
  | relational =>
    rw [fresh, after_wrap wraps_relational]
    exact .relational requests
  | vector =>
    obtain ⟨passed, hpassed⟩ := exists_records_after requests {}
    have hstate : after requests ({} : VectorStore) = { records := after passed {} } := by
      rw [← hpassed]
    rw [fresh, after_wrap wraps_vector, hstate]
    exact .vector passed

theorem Reached.fetches {b : Backend} (h : b.Reached) (store : String) :
    Fetches b store (b.KeepsChunk store) := by
  cases h with
  | memory requests =>
    exact fetches_wrap wraps_memory ((MemoryStore.valid_after_empty requests).fetches store)
  | relational requests =>
    exact fetches_wrap wraps_relational ((Database.valid_after_empty requests).fetches store)
  | vector requests =>
    -- A fetch does not ask the vector service, so it is one from the database.
    have hrecords : Fetches (VectorStore.mk (after requests {})) store
        ((after requests ({} : Database)).KeepsChunk store) :=
      ((Database.valid_after_empty requests).fetches store).lift fun _ => rfl
    exact fetches_wrap wraps_vector hrecords

end Backend

end CodeIndex
