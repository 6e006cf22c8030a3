import CodeIndex.Assembly
import CodeIndex.Proofs.Store.Equivalence

/-!
# The backends as lawful stores

A `Backend` passes its calls on to the store that it is, so it obeys the laws of that store.  It
obeys them in two ways, because the two stores see the starts of paths differently, and so neither
of them is an instance.

## Main definitions

* `Backend.Wraps` says that a backend passes its calls on.
* `Backend.lawful` are the laws of a backend that does.
* `BackendKind.startsWith` is how a backend sees the start of a path.
-/

namespace CodeIndex

/-- Whether a path starts with a text, as a backend sees it. -/
def BackendKind.startsWith : BackendKind → (start path : String) → Bool
  | .memory => fun start path => start.toList.isPrefixOf path.toList
  | .relational | .vector => Database.startsWith

/-- On a database a text with a NUL is the start of no path. -/
theorem Database.startsWith_iff {start path : String} :
    Database.startsWith start path ↔ start.toList <+: path.toList ∧ NulFree start := by
  rw [Database.startsWith, beq_iff_eq]
  constructor
  · intro hcut
    have hread : start.toList <+: path.toList.takeWhile (· != '\x00') := by
      rw [← hcut]
      exact List.take_prefix _ _
    refine ⟨hread.trans (List.takeWhile_prefix _), fun hnul => ?_⟩
    simpa using List.mem_takeWhile_imp (hread.subset hnul)
  · rintro ⟨⟨rest, hrest⟩, hstart⟩
    have hall : ∀ c ∈ start.toList, (c != '\x00') = true := by
      intro c hc
      exact bne_iff_ne.2 fun hnul => hstart (hnul ▸ hc)
    rw [← hrest, hstart.takeWhile_eq, List.takeWhile_append_of_pos hall]
    exact List.take_left

theorem BackendKind.startsWith_iff {kind : BackendKind} {start path : String} :
    kind.startsWith start path ↔
      start.toList <+: path.toList ∧ (kind = .memory ∨ NulFree start) := by
  cases kind with
  | memory => simp [BackendKind.startsWith]
  | relational | vector => simp [BackendKind.startsWith, Database.startsWith_iff]

namespace Backend

variable {σ : Type} [RecordStore σ]

/-- Calls on the backend are calls on the store inside. -/
def Wraps (wrap : σ → Backend) : Prop :=
  ∀ (α : Type) (call : (σ : Type) → [RecordStore σ] → StoreCall σ α) (s : σ),
    dispatch call (wrap s) = ((call σ s).1, wrap (call σ s).2)

theorem wraps_memory : Wraps memory := fun _ _ _ => rfl

theorem wraps_relational : Wraps relational := fun _ _ _ => rfl

theorem wraps_vector : Wraps vector := fun _ _ _ => rfl

theorem answering_wrap {wrap : σ → Backend} (hwrap : Wraps wrap) {α : Type} (answer : α → Answer)
    (call : (σ : Type) → [RecordStore σ] → StoreCall σ α) (s : σ) :
    (dispatch call : StoreCall Backend α).answering answer (wrap s) =
      (((call σ).answering answer s).1, wrap ((call σ).answering answer s).2) := by
  unfold StoreCall.answering
  rw [hwrap]
  cases call σ s with
  | mk found after => cases found <;> rfl

/-- Requests to the backend are requests to the store inside. -/
theorem perform_wrap {wrap : σ → Backend} (hwrap : Wraps wrap) (request : Request) (s : σ) :
    perform request (wrap s) = ((perform request s).1, wrap (perform request s).2) := by
  cases request <;> exact answering_wrap hwrap _ _ s

theorem held_wrap {wrap : σ → Backend} (hwrap : Wraps wrap) (s : σ) : held (wrap s) = held s := by
  have hhas : ∀ name, RecordStore.hasStore name (wrap s) =
      ((RecordStore.hasStore name s).1, wrap (RecordStore.hasStore name s).2) :=
    fun name => hwrap Bool (fun _ => RecordStore.hasStore name) s
  have hfind : ∀ name path, RecordStore.findDocument name path (wrap s) =
      ((RecordStore.findDocument name path s).1, wrap (RecordStore.findDocument name path s).2) :=
    fun name path => hwrap _ (fun _ => RecordStore.findDocument name path) s
  have hchunks : ∀ name ids, RecordStore.findChunks name ids (wrap s) =
      ((RecordStore.findChunks name ids s).1, wrap (RecordStore.findChunks name ids s).2) :=
    fun name ids => hwrap _ (fun _ => RecordStore.findChunks name ids) s
  have hdocumentAt : documentAt (wrap s) = documentAt s := by
    funext name path
    rw [documentAt, documentAt, hfind]
  have hchunkAt : chunkAt (wrap s) = chunkAt s := by
    funext name id
    rw [chunkAt, chunkAt, hchunks]
  funext name
  rw [held, held, hhas, hdocumentAt, hchunkAt]

section Lawful

variable [LawfulStore σ] {wrap : σ → Backend} (hwrap : Wraps wrap) {name : String} {α : Type}

/-- The backend is a store of the kind, in a valid state. -/
def WrapsValid (wrap : σ → Backend) (b : Backend) : Prop :=
  ∃ s, b = wrap s ∧ LawfulStore.Valid s

include hwrap

theorem reads_dispatch {call : (σ : Type) → [RecordStore σ] → StoreCall σ α}
    {answers : Shelf → α → Prop} (h : Reads LawfulStore.Valid name (call σ) answers) :
    Reads (WrapsValid wrap) name (dispatch call) answers := by
  rintro _ ⟨s, rfl, hs⟩
  obtain ⟨hstate, hanswer⟩ := h s hs
  rw [hwrap, held_wrap hwrap, hstate]
  exact ⟨rfl, hanswer⟩

theorem changes_dispatch {call : (σ : Type) → [RecordStore σ] → StoreCall σ α}
    {change : Shelf → Shelf} {able : Prop}
    (h : Changes LawfulStore.Valid name (call σ) change able) :
    Changes (WrapsValid wrap) name (dispatch call) change able where
  valid := by
    rintro _ ⟨s, rfl, hs⟩
    rw [hwrap]
    exact ⟨_, rfl, h.valid s hs⟩
  missing := by
    rintro _ ⟨s, rfl, hs⟩ hheld
    rw [held_wrap hwrap] at hheld
    rw [hwrap, held_wrap hwrap, held_wrap hwrap]
    exact h.missing s hs hheld
  refused := by
    rintro _ e ⟨s, rfl, hs⟩ he
    rw [hwrap] at he
    rw [hwrap, held_wrap hwrap, held_wrap hwrap]
    exact h.refused s e hs he
  succeeds := by
    rintro _ shelf ⟨s, rfl, hs⟩ hheld hable
    rw [held_wrap hwrap] at hheld
    rw [hwrap]
    exact h.succeeds s shelf hs hheld hable
  taken := by
    rintro _ shelf a ⟨s, rfl, hs⟩ hheld ha
    rw [held_wrap hwrap] at hheld
    rw [hwrap] at ha
    rw [hwrap, held_wrap hwrap, held_wrap hwrap]
    exact h.taken s shelf a hs hheld ha

omit hwrap in
/-- The laws of a backend are those of the store inside. -/
@[reducible] def lawful (wrap : σ → Backend) (hwrap : Wraps wrap) : LawfulStore Backend where
  Valid := WrapsValid wrap
  startsWith := LawfulStore.startsWith σ
  Fits := LawfulStore.Fits σ
  keyed name := by
    rintro _ shelf ⟨s, rfl, hs⟩ hheld
    rw [held_wrap hwrap] at hheld
    exact LawfulStore.keyed name s shelf hs hheld
  hasStore name := by
    rintro _ ⟨s, rfl, hs⟩
    obtain ⟨answer, hanswer⟩ := LawfulStore.hasStore name s hs
    refine ⟨answer, (hwrap _ (fun _ => RecordStore.hasStore name) s).trans ?_⟩
    rw [hanswer]
  allStores := by
    rintro _ ⟨s, rfl, hs⟩
    obtain ⟨names, hnames, hordered, hmem⟩ := LawfulStore.allStores s hs
    refine ⟨names, (hwrap _ (fun _ => RecordStore.allStores) s).trans ?_, hordered, ?_⟩
    · rw [hnames]
    · rwa [held_wrap hwrap]
  createStore name := by
    rintro _ ⟨s, rfl, hs⟩
    obtain ⟨hvalid, hanswer, hheld⟩ := LawfulStore.createStore name s hs
    have hcall : RecordStore.createStore name (wrap s) = _ :=
      hwrap _ (fun _ => RecordStore.createStore name) s
    rw [hcall, held_wrap hwrap, held_wrap hwrap]
    exact ⟨⟨_, rfl, hvalid⟩, hanswer, hheld⟩
  dropStore name := by
    rintro _ ⟨s, rfl, hs⟩
    obtain ⟨hvalid, hanswer, hheld⟩ := LawfulStore.dropStore name s hs
    have hcall : RecordStore.dropStore name (wrap s) = _ :=
      hwrap _ (fun _ => RecordStore.dropStore name) s
    rw [hcall, held_wrap hwrap, held_wrap hwrap]
    exact ⟨⟨_, rfl, hvalid⟩, hanswer, hheld⟩
  findDocument name path := reads_dispatch hwrap (LawfulStore.findDocument name path)
  allDocuments name := reads_dispatch hwrap (LawfulStore.allDocuments name)
  findChunks name ids := reads_dispatch hwrap (LawfulStore.findChunks name ids)
  stats name := reads_dispatch hwrap (LawfulStore.stats name)
  putDocument name document := changes_dispatch hwrap (LawfulStore.putDocument name document)
  putChunks name chunks := changes_dispatch hwrap (LawfulStore.putChunks name chunks)
  dropChunks name ids := changes_dispatch hwrap (LawfulStore.dropChunks name ids)
  dropDocuments name paths := changes_dispatch hwrap (LawfulStore.dropDocuments name paths)
  dropDocumentsBelow name start :=
    changes_dispatch hwrap (LawfulStore.dropDocumentsBelow name start)
  clear name := changes_dispatch hwrap (LawfulStore.clear name)

end Lawful

/-- A backend that keeps its records locally is lawful, and holds nothing at first. -/
theorem exists_lawful {kind : BackendKind} (hkind : kind ≠ .vector) :
    ∃ laws : LawfulStore Backend, laws.Valid (fresh kind) ∧ laws.startsWith = kind.startsWith ∧
      held (fresh kind) = fun _ => none := by
  cases kind with
  | memory =>
    refine ⟨lawful memory wraps_memory, ⟨{}, rfl, MemoryStore.valid_empty⟩, rfl, ?_⟩
    rw [fresh, held_wrap wraps_memory, held_empty_memory]
  | relational =>
    refine ⟨lawful relational wraps_relational, ⟨{}, rfl, Database.valid_empty⟩, rfl, ?_⟩
    rw [fresh, held_wrap wraps_relational, held_empty_database]
  | vector => exact absurd rfl hkind

end Backend

/-- The requests that make a store with one document, `a.txt`, of one chunk. -/
def stockingRequests (store : String) : List Request :=
  [.createStore store,
    .putChunks store [{ chunkId := "6ef08366e958d01d", documentId := "0d3bb67577b16a9c",
                        path := "a.txt", language := "unknown", nodeType := "", startLine := 1,
                        endLine := 1, content := "x" }],
    .putDocument store { documentId := "0d3bb67577b16a9c", path := "a.txt", contentHash := "",
                         language := "unknown", indexedAt := 0 }]

end CodeIndex
