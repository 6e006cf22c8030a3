import CodeIndex.Proofs.Store.Atomic
import CodeIndex.Proofs.Store.PointNumber

/-!
# Calls on a store that does not exist

Ten calls of the interface need their store to exist, and say so before they do anything else:
before a list of arguments is looked at, before chunks are checked, and before the vector service is
asked.  One call of one backend does not.  In memory, a removal of chunks answers that it removed
none when it is given none, and never looks for the store.

## Main definitions

* `StoreCall.Misses` and `StoreCall.Finds`: a call that is refused because there is no store of a
  name, and one that is not.
* `Backend.Overlooks` is the exception.

## Main results

* `MemoryStore.misses_perform`, `Database.misses_perform` and `VectorStore.misses_perform`: the
  calls of each backend on a store that it does not have.
* `missing_store_reported_iff`: the error tells exactly that the store is missing, up to the
  exception.
-/

namespace CodeIndex

namespace StoreCall

variable {σ α : Type} {store : String} {call : StoreCall σ α} {s : σ}

/-- The call fails because there is no store of the name, and changes nothing. -/
def Misses (store : String) (call : StoreCall σ α) (s : σ) : Prop :=
  call s = (.error (.storeNotFound store), s)

/-- The call does not fail because there is no store of the name. -/
def Finds (store : String) (call : StoreCall σ α) (s : σ) : Prop :=
  ∀ e, (call s).1 = .error e → e ≠ .storeNotFound store

theorem Misses.answering (h : call.Misses store s) (answer : α → Answer) :
    (call.answering answer).Misses store s := by
  unfold Misses at h ⊢
  unfold StoreCall.answering
  rw [h]

theorem Finds.answering (h : call.Finds store s) (answer : α → Answer) :
    (call.answering answer).Finds store s := by
  intro e he
  rw [fst_answering] at he
  cases hanswer : (call s).1 with
  | ok a =>
    rw [hanswer] at he
    cases he
  | error e' =>
    rw [hanswer] at he
    obtain rfl := Except.error.inj he
    exact h e' hanswer

end StoreCall

/-! ## In memory -/

namespace MemoryStore

variable {α : Type} {store : String} {m : MemoryStore} {request : Request}

theorem misses_reading (h : m.stores[store]? = none) (read : Collection → α) :
    (reading store read).Misses store m := by
  simp only [StoreCall.Misses, reading, h]

theorem misses_changing (h : m.stores[store]? = none) (change : Collection → α × Collection) :
    (changing store change).Misses store m := by
  simp only [StoreCall.Misses, changing, h]

/-- A request that needs a store which is not there is refused, unless it removes no chunks. -/
theorem misses_perform (hneeds : request.needs = some store) (h : m.stores[store]? = none)
    (hremoves : request ≠ .dropChunks store []) : (perform request).Misses store m := by
  cases request with
  | createStore | hasStore | allStores | dropStore => cases hneeds
  | findDocument | allDocuments | findChunks | stats =>
    obtain rfl := Option.some.inj hneeds
    exact (misses_reading h _).answering _
  | putDocument | putChunks | dropDocuments | dropDocumentsBelow | clear =>
    obtain rfl := Option.some.inj hneeds
    exact (misses_changing h _).answering _
  | dropChunks name ids =>
    obtain rfl := Option.some.inj hneeds
    have hids : ids.isEmpty = false := by
      cases ids with
      | nil => exact absurd rfl hremoves
      | cons id ids => rfl
    have hcall : StoreCall.Misses name (RecordStore.dropChunks name ids) m := by
      simpa only [StoreCall.Misses, RecordStore.dropChunks, hids, Bool.false_eq_true, if_false]
        using misses_changing h (·.dropChunks ids)
    exact hcall.answering _

theorem finds_reading (h : m.stores[store]? ≠ none) (read : Collection → α) :
    (reading store read).Finds store m := by
  obtain ⟨col, hcol⟩ := Option.ne_none_iff_exists'.1 h
  simp [StoreCall.Finds, reading, hcol]

theorem finds_changing (h : m.stores[store]? ≠ none) (change : Collection → α × Collection) :
    (changing store change).Finds store m := by
  obtain ⟨col, hcol⟩ := Option.ne_none_iff_exists'.1 h
  simp [StoreCall.Finds, changing, hcol]

theorem finds_perform (hneeds : request.needs = some store) (h : m.stores[store]? ≠ none) :
    (perform request).Finds store m := by
  cases request with
  | createStore | hasStore | allStores | dropStore => cases hneeds
  | findDocument | allDocuments | findChunks | stats =>
    obtain rfl := Option.some.inj hneeds
    exact (finds_reading h _).answering _
  | putDocument | putChunks | dropDocuments | dropDocumentsBelow | clear =>
    obtain rfl := Option.some.inj hneeds
    exact (finds_changing h _).answering _
  | dropChunks name ids =>
    obtain rfl := Option.some.inj hneeds
    have hcall : StoreCall.Finds name (RecordStore.dropChunks name ids) m := by
      intro e he
      simp only [RecordStore.dropChunks] at he
      split at he
      · cases he
      · exact finds_changing h (·.dropChunks ids) e he
    exact hcall.answering _

theorem mem_keys_iff : store ∈ m.stores.keys ↔ m.stores[store]? ≠ none := by
  rw [Std.TreeMap.mem_keys, Std.TreeMap.mem_iff_isSome_getElem?, Option.isSome_iff_ne_none]

end MemoryStore

/-! ## In a database -/

namespace Database

variable {α : Type} {store : String} {db : Database} {request : Request}

theorem checkStore_eq (db : Database) (store : String) :
    db.checkStore store =
      if db.hasStore store then .ok () else .error (.storeNotFound store) := rfl

theorem misses_reading (h : db.hasStore store = false)
    (read : Database → Except StoreError α) : (reading store read).Misses store db := by
  simp [StoreCall.Misses, reading, checkStore_eq, h, bind, Except.bind]

theorem misses_changing (h : db.hasStore store = false)
    (change : Database → Except StoreError (α × Database)) :
    (changing store change).Misses store db := by
  simp [StoreCall.Misses, changing, checkStore_eq, h, bind, Except.bind]

/-- A request that needs a store which is not there is refused. -/
theorem misses_perform (hneeds : request.needs = some store) (h : db.hasStore store = false) :
    (perform request).Misses store db := by
  cases request with
  | createStore | hasStore | allStores | dropStore => cases hneeds
  | findDocument | allDocuments | findChunks | stats =>
    obtain rfl := Option.some.inj hneeds
    exact (misses_reading h _).answering _
  | putDocument | putChunks | dropChunks | dropDocuments | dropDocumentsBelow | clear =>
    obtain rfl := Option.some.inj hneeds
    exact (misses_changing h _).answering _

theorem finds_reading (h : db.hasStore store) {read : Database → Except StoreError α}
    (hread : ∀ e, read db = .error e → e ≠ .storeNotFound store) :
    (reading store read).Finds store db := by
  intro e he
  rw [reading, checkStore_eq, if_pos h] at he
  exact hread e he

theorem finds_changing (h : db.hasStore store)
    {change : Database → Except StoreError (α × Database)}
    (hchange : ∀ e, change db = .error e → e ≠ .storeNotFound store) :
    (changing store change).Finds store db := by
  intro e he
  rw [changing, checkStore_eq, if_pos h] at he
  cases hmade : change db with
  | ok made => simp [hmade, bind, Except.bind] at he
  | error e' =>
    simp only [hmade, bind, Except.bind, Except.error.injEq] at he
    exact he ▸ hchange e' hmade

/-- All that writing chunks can fail for is a number that does not fit. -/
theorem eq_integerRange_of_addChunks {e : StoreError} {chunks : List ChunkRecord} {db : Database}
    (h : addChunks store chunks db = .error e) : e = .integerRange := by
  induction chunks generalizing db with
  | nil => cases h
  | cons chunk rest ih =>
    unfold addChunks at h
    split at h
    · exact (Except.error.inj h).symm
    · exact ih h

/-- All that reading a chunk can fail for is a list of symbols that is not readable. -/
theorem eq_json_of_chunk? {e : StoreError} {id : String} (h : db.chunk? store id = .error e) :
    e = .json := by
  unfold chunk? at h
  split at h
  · cases h
  · next row _ =>
    unfold ChunkRow.record at h
    split at h
    · exact (Except.error.inj h).symm
    · cases h

theorem eq_json_of_mapM_chunk? {e : StoreError} {ids : List String}
    (h : ids.mapM (db.chunk? store) = .error e) : e = .json := by
  induction ids with
  | nil => cases h
  | cons id rest ih =>
    rw [List.mapM_cons] at h
    cases hchunk : db.chunk? store id with
    | error e' =>
      rw [hchunk] at h
      obtain rfl := Except.error.inj h
      exact eq_json_of_chunk? hchunk
    | ok found =>
      cases hrest : rest.mapM (db.chunk? store) with
      | error e' =>
        rw [hchunk, hrest] at h
        obtain rfl := Except.error.inj h
        exact ih hrest
      | ok others =>
        rw [hchunk, hrest] at h
        cases h

theorem eq_of_map_eq_error {β : Type} {e : StoreError} {f : α → β} {answer : Except StoreError α}
    (h : answer.map f = .error e) : answer = .error e := by
  cases answer with
  | ok a => cases h
  | error e' => exact congrArg _ (Except.error.inj h)

theorem finds_perform (hneeds : request.needs = some store) (h : db.hasStore store) :
    (perform request).Finds store db := by
  cases request with
  | createStore | hasStore | allStores | dropStore => cases hneeds
  | findDocument | allDocuments | stats =>
    obtain rfl := Option.some.inj hneeds
    exact (finds_reading h fun e he => by cases he).answering _
  | putDocument | dropChunks | dropDocuments | dropDocumentsBelow | clear =>
    obtain rfl := Option.some.inj hneeds
    exact (finds_changing h fun e he => by cases he).answering _
  | findChunks name ids =>
    obtain rfl := Option.some.inj hneeds
    refine (finds_reading h fun e he => ?_).answering _
    rw [eq_json_of_mapM_chunk? (eq_of_map_eq_error he)]
    exact StoreError.noConfusion
  | putChunks name chunks =>
    obtain rfl := Option.some.inj hneeds
    refine (finds_changing h fun e he => ?_).answering _
    rw [eq_integerRange_of_addChunks (eq_of_map_eq_error he)]
    exact StoreError.noConfusion

theorem mem_sortTexts_stores_iff : store ∈ sortTexts db.stores ↔ db.hasStore store := by
  rw [mem_sortTexts, hasStore, List.contains_iff_mem]

end Database

/-! ## Beside a vector service -/

namespace VectorStore

variable {α : Type} {store : String} {s : VectorStore} {request : Request}

/-- The service does its part of a call first, then the database. -/
theorem perform_eq (request : Request) (s : VectorStore) :
    perform request s = match s.served request with
      | .error e => (.error e, s)
      | .ok () => inRecords (perform request) s := by
  rw [← inRecords_interrupted_unbroken, ← interrupted_unbroken]
  rfl

/-- The service is not asked about a store that is not there. -/
theorem eq_storeNotFound_of_served {e : StoreError} (hneeds : request.needs = some store)
    (h : s.records.hasStore store = false) (he : s.served request = .error e) :
    e = .storeNotFound store := by
  cases request with
  | createStore | hasStore | allStores | dropStore => cases hneeds
  | putDocument | findDocument | allDocuments | findChunks | stats => cases he
  | putChunks | dropChunks | dropDocuments | dropDocumentsBelow | clear =>
    obtain rfl := Option.some.inj hneeds
    rw [served, Database.checkStore_eq, h] at he
    exact (Except.error.inj he).symm

/-- A request that needs a store which is not there is refused. -/
theorem misses_perform (hneeds : request.needs = some store)
    (h : s.records.hasStore store = false) : (perform request).Misses store s := by
  rw [StoreCall.Misses, perform_eq]
  cases hserved : s.served request with
  | error e => rw [eq_storeNotFound_of_served hneeds h hserved]
  | ok _ =>
    have hrecords := Database.misses_perform hneeds h
    rw [StoreCall.Misses] at hrecords
    simp only [inRecords, hrecords]

theorem checkPoints_ne_storeNotFound {e : StoreError} {chunks : List ChunkRecord}
    (h : checkPoints chunks = .error e) : e ≠ .storeNotFound store := by
  induction chunks with
  | nil => cases h
  | cons chunk rest ih =>
    unfold checkPoints at h
    split at h
    · exact Except.error.inj h ▸ StoreError.noConfusion
    · split at h
      · next e' hnumber =>
        obtain rfl := Except.error.inj h
        rw [pointNumber_eq] at hnumber
        split at hnumber
        · cases hnumber
        · exact Except.error.inj hnumber ▸ StoreError.noConfusion
      · exact ih h

theorem askToForget_ne_storeNotFound {e : StoreError} {ids : List String}
    (h : askToForget ids = .error e) : e ≠ .storeNotFound store := by
  unfold askToForget at h
  split at h
  · cases h
  · exact Except.error.inj h ▸ StoreError.noConfusion

/-- What the service refuses is not the name of the store. -/
theorem served_ne_storeNotFound {e : StoreError} (hneeds : request.needs = some store)
    (h : s.records.hasStore store) (he : s.served request = .error e) :
    e ≠ .storeNotFound store := by
  cases request with
  | createStore | hasStore | allStores | dropStore => cases hneeds
  | putDocument | findDocument | allDocuments | findChunks | stats => cases he
  | clear =>
    obtain rfl := Option.some.inj hneeds
    rw [served, Database.checkStore_eq, if_pos h] at he
    exact Except.error.inj he ▸ StoreError.noConfusion
  | dropChunks | dropDocuments | dropDocumentsBelow =>
    obtain rfl := Option.some.inj hneeds
    rw [served, Database.checkStore_eq, if_pos h] at he
    exact askToForget_ne_storeNotFound he
  | putChunks name chunks =>
    obtain rfl := Option.some.inj hneeds
    rw [served, Database.checkStore_eq, if_pos h] at he
    cases hempty : chunks.isEmpty with
    | true =>
      rw [hempty] at he
      cases he
    | false =>
      rw [hempty] at he
      cases hpoints : checkPoints chunks with
      | error e' =>
        rw [hpoints] at he
        obtain rfl := Except.error.inj he
        exact checkPoints_ne_storeNotFound hpoints
      | ok _ =>
        rw [hpoints] at he
        exact Except.error.inj he ▸ StoreError.noConfusion

theorem finds_perform (hneeds : request.needs = some store) (h : s.records.hasStore store) :
    (perform request).Finds store s := by
  intro e he
  rw [perform_eq] at he
  cases hserved : s.served request with
  | error e' =>
    rw [hserved] at he
    obtain rfl := Except.error.inj he
    exact served_ne_storeNotFound hneeds h hserved
  | ok _ =>
    rw [hserved] at he
    exact Database.finds_perform hneeds h e he

end VectorStore

/-! ## Every backend -/

namespace Backend

variable {σ : Type} [RecordStore σ] {wrap : σ → Backend} {s : σ} {store : String}
  {request : Request} {b : Backend}

theorem misses_wrap (hwrap : Wraps wrap) (h : (perform request).Misses store s) :
    (perform request).Misses store (wrap s) := by
  unfold StoreCall.Misses at h ⊢
  rw [perform_wrap hwrap, h]

theorem finds_wrap (hwrap : Wraps wrap) (h : (perform request).Finds store s) :
    (perform request).Finds store (wrap s) := by
  intro e he
  rw [perform_wrap hwrap] at he
  exact h e he

/-- The request that does not look for its store: in memory, the removal of no chunks. -/
def Overlooks (b : Backend) (request : Request) : Prop :=
  ∃ m store, b = memory m ∧ request = .dropChunks store []

/-- The names that the backend lists are those of the stores that its requests find. -/
structure Reports (b : Backend) (names : List String) : Prop where
  allStores : RecordStore.allStores b = (.ok names, b)
  finds : ∀ request store, request.needs = some store → store ∈ names →
    (perform request).Finds store b
  misses : ∀ request store, request.needs = some store → store ∉ names → ¬ b.Overlooks request →
    (perform request).Misses store b

theorem exists_reports (b : Backend) : ∃ names, b.Reports names := by
  cases b with
  | memory m =>
    refine ⟨m.stores.keys, rfl, fun request store hneeds hstore => ?_,
      fun request store hneeds hstore hlooks => ?_⟩
    · exact finds_wrap wraps_memory
        (MemoryStore.finds_perform hneeds (MemoryStore.mem_keys_iff.1 hstore))
    · rw [MemoryStore.mem_keys_iff, not_not] at hstore
      exact misses_wrap wraps_memory
        (MemoryStore.misses_perform hneeds hstore fun hnone => hlooks ⟨m, store, rfl, hnone⟩)
  | relational db =>
    refine ⟨Database.sortTexts db.stores, rfl, fun request store hneeds hstore => ?_,
      fun request store hneeds hstore _ => ?_⟩
    · rw [Database.mem_sortTexts_stores_iff] at hstore
      exact finds_wrap wraps_relational (Database.finds_perform hneeds hstore)
    · rw [Database.mem_sortTexts_stores_iff, Bool.not_eq_true] at hstore
      exact misses_wrap wraps_relational (Database.misses_perform hneeds hstore)
  | vector s =>
    refine ⟨Database.sortTexts s.records.stores, rfl, fun request store hneeds hstore => ?_,
      fun request store hneeds hstore _ => ?_⟩
    · rw [Database.mem_sortTexts_stores_iff] at hstore
      exact finds_wrap wraps_vector (VectorStore.finds_perform hneeds hstore)
    · rw [Database.mem_sortTexts_stores_iff, Bool.not_eq_true] at hstore
      exact misses_wrap wraps_vector (VectorStore.misses_perform hneeds hstore)

/-- In memory a removal of no chunks is answered, whatever the stores are. -/
theorem perform_of_overlooks (h : b.Overlooks request) :
    perform request b = (.ok (.count 0), b) := by
  obtain ⟨m, store, rfl, rfl⟩ := h
  rfl

end Backend

/-- **A missing store is reported.**  Each request that needs a store fails with the error that
names the store exactly if the store is not listed, whatever its other arguments are, and then it
changes nothing.  The one exception is the removal of no chunks in memory, which is answered with
zero although the store is missing. -/
theorem missing_store_reported_iff (b : Backend) :
    ∃ names, RecordStore.allStores b = (.ok names, b) ∧
      ∀ (request : Request) (store : String), request.needs = some store →
        ((perform request b).1 = .error (.storeNotFound store) ↔
          store ∉ names ∧ ¬ b.Overlooks request) ∧
        (store ∉ names → (perform request b).2 = b) ∧
        (b.Overlooks request → (perform request b).1 = .ok (.count 0)) := by
  obtain ⟨names, hreports⟩ := b.exists_reports
  refine ⟨names, hreports.allStores, fun request store hneeds => ?_⟩
  by_cases hoverlooks : b.Overlooks request
  · have hanswer := Backend.perform_of_overlooks hoverlooks
    rw [hanswer]
    exact ⟨⟨(nomatch ·), fun h => absurd hoverlooks h.2⟩, fun _ => rfl, fun _ => rfl⟩
  · refine ⟨⟨fun he => ⟨fun hstore => ?_, hoverlooks⟩, fun h => ?_⟩, fun hstore => ?_,
      fun h => absurd h hoverlooks⟩
    · exact hreports.finds request store hneeds hstore _ he rfl
    · rw [hreports.misses request store hneeds h.1 h.2]
    · rw [hreports.misses request store hneeds hstore hoverlooks]

/-- A backend of each kind with the store `s`. -/
def backendWithStore (kind : BackendKind) : Backend := after [.createStore "s"] (.fresh kind)

theorem missing_store_reported_sample :
    (∀ kind, (perform (.dropDocuments "t" []) (backendWithStore kind)).1 =
      .error (.storeNotFound "t")) ∧
    (perform (.dropChunks "t" []) (backendWithStore .vector)).1 = .error (.storeNotFound "t") ∧
    (perform (.dropChunks "t" []) (backendWithStore .memory)).1 = .ok (.count 0) := by
  have hreported : ∀ kind (request : Request), request.needs = some "t" →
      ¬ (backendWithStore kind).Overlooks request →
      (perform request (backendWithStore kind)).1 = .error (.storeNotFound "t") := by
    intro kind request hneeds hoverlooks
    obtain ⟨names, hnames, hrequests⟩ := missing_store_reported_iff (backendWithStore kind)
    have hlisted : (RecordStore.allStores (backendWithStore kind)).1 = .ok ["s"] := by
      cases kind <;> decide +kernel
    rw [hnames] at hlisted
    obtain rfl : names = ["s"] := Except.ok.inj hlisted
    exact (hrequests request "t" hneeds).1.2 ⟨by decide, hoverlooks⟩
  refine ⟨fun kind => hreported kind _ rfl ?_, hreported .vector _ rfl ?_, ?_⟩
  · rintro ⟨m, store, -, hrequest⟩
    cases hrequest
  · rintro ⟨m, store, hmemory, -⟩
    cases hmemory
  · obtain ⟨names, -, hrequests⟩ := missing_store_reported_iff (backendWithStore .memory)
    exact (hrequests (.dropChunks "t" []) "t" rfl).2.2 ⟨_, "t", rfl, rfl⟩

end CodeIndex
