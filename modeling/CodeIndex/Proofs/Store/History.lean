import CodeIndex.Proofs.Store.Shelf

/-!
# Histories of a store

A history of requests determines what a store holds: `held_after` computes the shelves from the
requests alone.  Since a refused request changes nothing, the answers do not matter.

## Main definitions

* `after` is the state that a history leads to.
* `Request.effect` is what a request does to the shelves.
* `Request.IsRead` are the requests that change nothing.

## Main results

* `valid_perform` and `held_perform` for one request, `valid_after` and `held_after` for a history.
* `held_perform_cases` for a request that may be refused.
-/

namespace CodeIndex

/-! ## Histories -/

/-- The state after a history, whatever the requests were answered with. -/
def after {σ : Type} [RecordStore σ] (requests : List Request) (s : σ) : σ :=
  requests.foldl (fun s request => (perform request s).2) s

namespace Request

/-- A request that changes nothing. -/
def IsRead : Request → Prop
  | hasStore _ | allStores | findDocument _ _ | allDocuments _ | findChunks _ _ | stats _ => True
  | _ => False

/-- What a request does to the shelves, where `startsWith` says which paths start with a text.  A
request on a store that does not exist changes nothing. -/
def effect (startsWith : String → String → Bool) (request : Request)
    (held : String → Option Shelf) : String → Option Shelf :=
  let change (store : String) (f : Shelf → Shelf) : String → Option Shelf :=
    Function.update held store ((held store).map f)
  match request with
  | createStore store => Function.update held store (some ((held store).getD {}))
  | dropStore store => Function.update held store none
  | putDocument store document => change store (·.addDocument document)
  | putChunks store chunks => change store (·.addChunks chunks)
  | dropChunks store ids => change store (·.dropChunks ids)
  | dropDocuments store paths => change store (·.dropDocuments paths)
  | dropDocumentsBelow store start => change store (·.dropWhere (startsWith start))
  | clear store => change store fun _ => {}
  | hasStore _ | allStores | findDocument _ _ | allDocuments _ | findChunks _ _ | stats _ => held

/-- Every chunk that the request writes can be written. -/
def Fits (σ : Type) [RecordStore σ] [LawfulStore σ] : Request → Prop
  | putChunks _ chunks => ∀ chunk ∈ chunks, LawfulStore.Fits σ chunk
  | _ => True

end Request

theorem snd_answering {σ α : Type} (answer : α → Answer) (call : StoreCall σ α) (s : σ) :
    (call.answering answer s).2 = (call s).2 := by
  unfold StoreCall.answering
  split <;> next h => rw [h]

theorem fst_answering {σ α : Type} (answer : α → Answer) (call : StoreCall σ α) (s : σ) :
    (call.answering answer s).1 = (call s).1.map answer := by
  unfold StoreCall.answering
  split <;> next h => rw [h]; rfl

section Lawful

variable {σ : Type} [RecordStore σ] [LawfulStore σ]

open LawfulStore (Valid startsWith)

theorem hasStore_eq {s : σ} (hs : Valid s) (name : String) :
    (RecordStore.hasStore name s).1 = .ok (held s name).isSome := by
  obtain ⟨answer, hanswer⟩ := LawfulStore.hasStore name s hs
  rw [held, hanswer]
  cases answer <;> rfl

/-- A list of all documents has every path that has a document. -/
theorem path_mem_of_listsAll {s : σ} (hs : Valid s) {name : String} {shelf : Shelf}
    (hheld : held s name = some shelf) {documents : List DocumentRecord}
    (hall : shelf.ListsAll documents) {path : String} (hpath : (shelf.documents path).isSome) :
    path ∈ documents.map (·.path) := by
  obtain ⟨stored, hstored⟩ := Option.isSome_iff_exists.1 hpath
  have hfound := (LawfulStore.findDocument name path s hs).2
  simp only [hheld, hstored] at hfound
  obtain ⟨_, -, hlists⟩ := hfound
  cases hlists with
  | some hlists =>
    rename_i document
    have hkey : document.path = path := by
      rw [← DocumentRecord.path_bare, hlists.bare]
      exact (LawfulStore.keyed name s shelf hs hheld).documents path stored hstored
    refine List.mem_map.2 ⟨document, (hall.mem_iff document).2 ⟨stored, ?_, hlists⟩, hkey⟩
    rw [hkey, hstored]

/-- A call that changes one store changes its shelf, if there is one. -/
theorem Changes.held_eq {α : Type} {name : String} {call : StoreCall σ α} {change : Shelf → Shelf}
    {able : Prop} (h : Changes (Valid : σ → Prop) name call change able) (hable : able) {s : σ}
    (hs : Valid s) :
    held (call s).2 = Function.update (held s) name ((held s name).map change) := by
  cases hheld : held s name with
  | none =>
    rw [h.missing s hs hheld, Option.map_none, ← hheld, Function.update_eq_self]
  | some shelf =>
    obtain ⟨a, ha⟩ := h.succeeds s shelf hs hheld hable
    exact h.taken s shelf a hs hheld ha

theorem Reads.state_eq {α : Type} {name : String} {call : StoreCall σ α}
    {answers : Shelf → α → Prop} (h : Reads (Valid : σ → Prop) name call answers) {s : σ}
    (hs : Valid s) : (call s).2 = s :=
  (h s hs).1

/-- A request leads from a valid state to a valid state. -/
theorem valid_perform {s : σ} (hs : Valid s) (request : Request) : Valid (perform request s).2 := by
  cases request with
  | createStore store =>
    rw [perform, snd_answering]
    exact (LawfulStore.createStore store s hs).1
  | dropStore store =>
    rw [perform, snd_answering]
    exact (LawfulStore.dropStore store s hs).1
  | hasStore store =>
    obtain ⟨answer, hanswer⟩ := LawfulStore.hasStore store s hs
    rwa [perform, snd_answering, hanswer]
  | allStores =>
    obtain ⟨names, hnames, -⟩ := LawfulStore.allStores s hs
    rwa [perform, snd_answering, hnames]
  | findDocument store path =>
    rwa [perform, snd_answering, (LawfulStore.findDocument store path).state_eq hs]
  | allDocuments store =>
    rwa [perform, snd_answering, (LawfulStore.allDocuments store).state_eq hs]
  | findChunks store ids =>
    rwa [perform, snd_answering, (LawfulStore.findChunks store ids).state_eq hs]
  | stats store => rwa [perform, snd_answering, (LawfulStore.stats store).state_eq hs]
  | putDocument store document =>
    rw [perform, snd_answering]
    exact (LawfulStore.putDocument store document).valid s hs
  | putChunks store chunks =>
    rw [perform, snd_answering]
    exact (LawfulStore.putChunks store chunks).valid s hs
  | dropChunks store ids =>
    rw [perform, snd_answering]
    exact (LawfulStore.dropChunks store ids).valid s hs
  | dropDocuments store paths =>
    rw [perform, snd_answering]
    exact (LawfulStore.dropDocuments store paths).valid s hs
  | dropDocumentsBelow store start =>
    rw [perform, snd_answering]
    exact (LawfulStore.dropDocumentsBelow store start).valid s hs
  | clear store =>
    rw [perform, snd_answering]
    exact (LawfulStore.clear store).valid s hs

/-- What one request does to the shelves. -/
theorem held_perform {s : σ} (hs : Valid s) (request : Request) (hfits : request.Fits σ) :
    held (perform request s).2 = request.effect (startsWith σ) (held s) := by
  cases request with
  | createStore store =>
    rw [perform, snd_answering]
    exact (LawfulStore.createStore store s hs).2.2
  | dropStore store =>
    rw [perform, snd_answering]
    exact (LawfulStore.dropStore store s hs).2.2
  | hasStore store =>
    obtain ⟨answer, hanswer⟩ := LawfulStore.hasStore store s hs
    rw [perform, snd_answering, hanswer]
    rfl
  | allStores =>
    obtain ⟨names, hnames, -⟩ := LawfulStore.allStores s hs
    rw [perform, snd_answering, hnames]
    rfl
  | findDocument store path =>
    rw [perform, snd_answering, (LawfulStore.findDocument store path).state_eq hs]
    rfl
  | allDocuments store =>
    rw [perform, snd_answering, (LawfulStore.allDocuments store).state_eq hs]
    rfl
  | findChunks store ids =>
    rw [perform, snd_answering, (LawfulStore.findChunks store ids).state_eq hs]
    rfl
  | stats store =>
    rw [perform, snd_answering, (LawfulStore.stats store).state_eq hs]
    rfl
  | putDocument store document =>
    rw [perform, snd_answering]
    exact (LawfulStore.putDocument store document).held_eq trivial hs
  | putChunks store chunks =>
    rw [perform, snd_answering]
    exact (LawfulStore.putChunks store chunks).held_eq hfits hs
  | dropChunks store ids =>
    rw [perform, snd_answering]
    exact (LawfulStore.dropChunks store ids).held_eq trivial hs
  | dropDocuments store paths =>
    rw [perform, snd_answering]
    exact (LawfulStore.dropDocuments store paths).held_eq trivial hs
  | dropDocumentsBelow store start =>
    rw [perform, snd_answering]
    exact (LawfulStore.dropDocumentsBelow store start).held_eq trivial hs
  | clear store =>
    rw [perform, snd_answering]
    exact (LawfulStore.clear store).held_eq trivial hs

/-- A request has its effect, or it is refused and has none. -/
theorem held_perform_cases {s : σ} (hs : Valid s) (request : Request) :
    held (perform request s).2 = held s ∨
      held (perform request s).2 = request.effect (startsWith σ) (held s) := by
  cases request with
  | putChunks name chunks =>
    have hlaw := LawfulStore.putChunks (σ := σ) name chunks
    rw [perform, snd_answering]
    cases hanswer : (RecordStore.putChunks name chunks s).1 with
    | error e => exact .inl (hlaw.refused s e hs hanswer)
    | ok answer =>
      cases hheld : held s name with
      | none => exact .inl (hlaw.missing s hs hheld)
      | some shelf =>
        right
        rw [hlaw.taken s shelf answer hs hheld hanswer]
        simp only [Request.effect, hheld, Option.map_some]
  | createStore | hasStore | allStores | dropStore | putDocument | findDocument | allDocuments
  | findChunks | dropChunks | dropDocuments | dropDocumentsBelow | clear | stats =>
    exact .inr (held_perform hs _ trivial)

theorem valid_after {s : σ} (hs : Valid s) (requests : List Request) :
    Valid (after requests s) := by
  induction requests generalizing s with
  | nil => exact hs
  | cons request rest ih => exact ih (valid_perform hs request)

/-- A history determines what is held. -/
theorem held_after {s : σ} (hs : Valid s) (requests : List Request)
    (hfits : ∀ request ∈ requests, request.Fits σ) : held (after requests s) =
      requests.foldl (fun shelves request => request.effect (startsWith σ) shelves) (held s) := by
  induction requests generalizing s with
  | nil => rfl
  | cons request rest ih =>
    obtain ⟨hrequest, hrest⟩ := List.forall_mem_cons.1 hfits
    rw [List.foldl_cons, ← held_perform hs request hrequest]
    exact ih (valid_perform hs request) hrest

end Lawful

end CodeIndex
