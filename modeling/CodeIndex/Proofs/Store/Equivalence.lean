import Mathlib.Data.List.TakeWhile
import CodeIndex.Proofs.Store.Collection
import CodeIndex.Proofs.Store.DatabaseLaws
import CodeIndex.Proofs.Store.History

/-!
# The two backends agree

What a store holds is determined by its history, and a read is determined by what is held.  The
database and the store in memory differ in one point only, in what they take for the start of a
path, and there they agree as long as neither the paths nor the starts have a NUL in them.  So after
every such history the two backends answer every read alike.

## Main definitions

* `Request.Portable` says that the numbers of a request fit the database and that its texts have no
  NUL where the database would stop reading.

## Main results

* `reads_agree`: equal holdings give equal answers.
* `memory_database_agree`: the two backends answer alike after every history.
-/

namespace CodeIndex

section Lawful

variable {σ τ : Type} [RecordStore σ] [LawfulStore σ] [RecordStore τ] [LawfulStore τ]

open LawfulStore (Valid)

/-! ## Reads -/

/-- An answer without the vectors of the chunks in it. -/
def Answer.plain : Answer → Answer
  | .chunks found => .chunks (found.map .plain)
  | answer => answer

/-- A read is answered alike by two stores that hold the same, if a shelf leaves one answer only. -/
theorem Reads.agree {α : Type} {name : String} {callₛ : StoreCall σ α} {callₜ : StoreCall τ α}
    {answers : Shelf → α → Prop} (hₛ : Reads (Valid : σ → Prop) name callₛ answers)
    (hₜ : Reads (Valid : τ → Prop) name callₜ answers) {answer : α → Answer}
    (hunique : ∀ shelf a b, answers shelf a → answers shelf b →
      (answer a).plain = (answer b).plain)
    {s : σ} {t : τ} (hs : Valid s) (ht : Valid t) (h : held s = held t) :
    (callₛ.answering answer s).1.map Answer.plain =
      (callₜ.answering answer t).1.map Answer.plain := by
  have hs' := (hₛ s hs).2
  have ht' := (hₜ t ht).2
  rw [h] at hs'
  rw [fst_answering, fst_answering]
  cases hheld : held t name with
  | none =>
    rw [hheld] at hs' ht'
    rw [hs', ht']
  | some shelf =>
    rw [hheld] at hs' ht'
    obtain ⟨a, ha, hanswer⟩ := hs'
    obtain ⟨b, hb, hanswer'⟩ := ht'
    rw [ha, hb]
    exact congrArg Except.ok (hunique shelf a b hanswer hanswer')

/-- What is held determines the answers. -/
theorem reads_agree {s : σ} {t : τ} (hs : Valid s) (ht : Valid t) (h : held s = held t)
    {read : Request} (hread : read.IsRead) :
    (perform read s).1.map Answer.plain = (perform read t).1.map Answer.plain := by
  cases read with
  | hasStore name =>
    rw [perform, perform, fst_answering, fst_answering, hasStore_eq hs, hasStore_eq ht, h]
  | allStores =>
    obtain ⟨names, hnames, hsorted, hmem⟩ := LawfulStore.allStores s hs
    obtain ⟨names', hnames', hsorted', hmem'⟩ := LawfulStore.allStores t ht
    obtain rfl : names = names' := by
      refine hsorted.eq_of_mem_iff hsorted' fun name => ?_
      rw [hmem, hmem', h]
    rw [perform, perform, fst_answering, fst_answering, hnames, hnames']
  | findDocument name path =>
    refine (LawfulStore.findDocument name path).agree (LawfulStore.findDocument name path)
      ?_ hs ht h
    intro shelf a b ha hb
    rw [Shelf.Lists.rel_unique ha hb]
  | allDocuments name =>
    refine (LawfulStore.allDocuments name).agree (LawfulStore.allDocuments name) ?_ hs ht h
    intro shelf a b ha hb
    rw [ha.unique hb]
  | findChunks name ids =>
    refine (LawfulStore.findChunks name ids).agree (LawfulStore.findChunks name ids) ?_ hs ht h
    intro shelf a b ha hb
    rw [Answer.plain, Answer.plain, ha, hb]
  | stats name =>
    refine (LawfulStore.stats name).agree (LawfulStore.stats name) ?_ hs ht h
    intro shelf a b ha hb
    rw [ha.unique hb]
  | _ => exact absurd hread (by simp [Request.IsRead])

end Lawful

/-! ## Starts of paths -/

/-- A text without the character at which the database stops reading. -/
def NulFree (text : String) : Prop := '\x00' ∉ text.toList

/-- The numbers of a request fit the database, and neither the paths of documents nor the starts of
paths in it have a NUL. -/
def Request.Portable : Request → Prop
  | .putDocument _ document => NulFree document.path
  | .putChunks _ chunks =>
    ∀ chunk ∈ chunks, chunk.startLine ≤ maxColumnValue ∧ chunk.endLine ≤ maxColumnValue
  | .dropDocumentsBelow _ start => NulFree start
  | _ => True

theorem NulFree.takeWhile_eq {text : String} (h : NulFree text) :
    text.toList.takeWhile (· != '\x00') = text.toList := by
  rw [List.takeWhile_eq_self_iff]
  intro c hc
  have hne : c ≠ '\x00' := fun hnul => h (hnul ▸ hc)
  simpa using hne

theorem startsWith_eq_isPrefixOf {start path : String} (hstart : NulFree start)
    (hpath : NulFree path) :
    Database.startsWith start path = start.toList.isPrefixOf path.toList := by
  rw [Database.startsWith, hstart.takeWhile_eq, hpath.takeWhile_eq, Bool.eq_iff_iff, beq_iff_eq,
    List.isPrefixOf_iff_prefix, List.prefix_iff_eq_take]
  exact eq_comm

/-- No document stands at a path with a NUL. -/
def NulFreePaths (held : String → Option Shelf) : Prop :=
  ∀ name shelf path, held name = some shelf → (shelf.documents path).isSome → NulFree path

/-- Both backends take the same change from a request. -/
theorem effect_eq {shelves : String → Option Shelf} (h : NulFreePaths shelves) {request : Request}
    (hrequest : request.Portable) :
    request.effect (LawfulStore.startsWith MemoryStore) shelves =
      request.effect (LawfulStore.startsWith Database) shelves := by
  cases request with
  | dropDocumentsBelow store start =>
    simp only [Request.effect]
    refine congrArg _ ?_
    cases hshelf : shelves store with
    | none => rfl
    | some shelf =>
      refine congrArg some (Shelf.dropWhere_congr fun path hpath => ?_)
      exact (startsWith_eq_isPrefixOf hrequest (h store shelf path hshelf hpath)).symm
  | _ => rfl

theorem NulFreePaths.update {shelves : String → Option Shelf} (h : NulFreePaths shelves)
    {store : String} {changed : Option Shelf}
    (hchanged : ∀ shelf path, changed = some shelf → (shelf.documents path).isSome → NulFree path) :
    NulFreePaths (Function.update shelves store changed) := by
  intro name shelf path hshelf hpath
  by_cases hname : name = store
  · subst hname
    rw [Function.update_self] at hshelf
    exact hchanged shelf path hshelf hpath
  · rw [Function.update_of_ne hname] at hshelf
    exact h name shelf path hshelf hpath

/-- Documents get in by the requests that write them, so their paths stay free of NULs. -/
theorem NulFreePaths.effect {shelves : String → Option Shelf} (h : NulFreePaths shelves)
    (startsWith : String → String → Bool) {request : Request} (hrequest : request.Portable) :
    NulFreePaths (request.effect startsWith shelves) := by
  -- A change is harmless if it adds no document.
  have hchange : ∀ (store : String) (change : Shelf → Shelf),
      (∀ (shelf : Shelf) path, ((change shelf).documents path).isSome →
        (shelf.documents path).isSome) →
      NulFreePaths (Function.update shelves store ((shelves store).map change)) := by
    intro store change hadds
    refine h.update fun shelf path hshelf hpath => ?_
    obtain ⟨before, hbefore, rfl⟩ := Option.map_eq_some_iff.1 hshelf
    exact h store before path hbefore (hadds before path hpath)
  have hdrop : ∀ (drop : String → Bool) (shelf : Shelf) path,
      ((shelf.dropWhere drop).documents path).isSome → (shelf.documents path).isSome := by
    intro drop shelf path hpath
    simp only [Shelf.dropWhere] at hpath
    split at hpath
    · simp at hpath
    · exact hpath
  cases request with
  | createStore store =>
    refine h.update fun shelf path hshelf hpath => ?_
    obtain rfl := Option.some.inj hshelf
    cases hbefore : shelves store with
    | none => simp [hbefore] at hpath
    | some before => exact h store before path hbefore (by simpa [hbefore] using hpath)
  | dropStore store => exact h.update fun shelf path hshelf _ => by simp at hshelf
  | putDocument store document =>
    refine h.update fun shelf path hshelf hpath => ?_
    obtain ⟨before, hbefore, rfl⟩ := Option.map_eq_some_iff.1 hshelf
    by_cases hdocument : path = document.path
    · exact hdocument ▸ hrequest
    · simp only [Shelf.addDocument, if_neg hdocument] at hpath
      exact h store before path hbefore hpath
  | putChunks store chunks => exact hchange store _ fun shelf path hpath => by simpa using hpath
  | dropChunks store ids => exact hchange store _ fun shelf path hpath => by simpa using hpath
  | dropDocuments store paths => exact hchange store _ (hdrop paths.contains)
  | dropDocumentsBelow store start => exact hchange store _ (hdrop (startsWith start))
  | clear store => exact hchange store _ fun shelf path hpath => by simp at hpath
  | hasStore _ | allStores | findDocument _ _ | allDocuments _ | findChunks _ _ | stats _ => exact h

/-! ## The two backends -/

theorem held_empty_memory : held ({} : MemoryStore) = fun _ => none := by
  funext name
  rw [MemoryStore.held_eq MemoryStore.valid_empty]
  simp

theorem held_empty_database : held ({} : Database) = fun _ => none := by
  funext name
  rw [Database.held_eq Database.valid_empty]
  simp

/-- The histories of both backends lead to the same shelves. -/
theorem foldl_effect_eq {requests : List Request} (h : ∀ request ∈ requests, request.Portable)
    {shelves : String → Option Shelf} (hshelves : NulFreePaths shelves) :
    requests.foldl (fun shelves request =>
        request.effect (LawfulStore.startsWith MemoryStore) shelves) shelves =
      requests.foldl (fun shelves request =>
        request.effect (LawfulStore.startsWith Database) shelves) shelves := by
  induction requests generalizing shelves with
  | nil => rfl
  | cons request rest ih =>
    obtain ⟨hrequest, hrest⟩ := List.forall_mem_cons.1 h
    rw [List.foldl_cons, List.foldl_cons, effect_eq hshelves hrequest]
    exact ih hrest (hshelves.effect _ hrequest)

/-- After every history that both backends have gone through from empty, every read is answered
alike, the vectors of chunks apart: by the same error, or by the same answer in the same order. -/
theorem memory_database_agree (requests : List Request)
    (hportable : ∀ request ∈ requests, request.Portable) (read : Request) (hread : read.IsRead) :
    (perform read (after requests ({} : MemoryStore))).1.map Answer.plain =
      (perform read (after requests ({} : Database))).1.map Answer.plain := by
  have hmemory := @held_after MemoryStore _ _ {} MemoryStore.valid_empty requests
    fun request _ => by cases request <;> simp [Request.Fits, LawfulStore.Fits]
  have hdatabase := @held_after Database _ _ {} Database.valid_empty requests
    fun request hrequest => by
      cases request with
      | putChunks store chunks => exact hportable _ hrequest
      | _ => trivial
  refine reads_agree (valid_after MemoryStore.valid_empty requests)
    (valid_after Database.valid_empty requests) ?_ hread
  rw [hmemory, hdatabase, held_empty_memory, held_empty_database]
  exact foldl_effect_eq hportable fun name shelf path hshelf _ => by simp at hshelf

/-- A history in which a chunk loses its document and another one changes hands. -/
def sampleHistory : List Request :=
  let document (path : String) : DocumentRecord :=
    { documentId := "d", path, contentHash := "h", language := "text", indexedAt := 0 }
  let chunk (id documentId path : String) : ChunkRecord :=
    { chunkId := id, documentId, path, language := "text", nodeType := "", startLine := 1,
      endLine := 2, content := "x", symbols := ["f"] }
  [.createStore "s", .putDocument "s" (document "a/b"), .putDocument "s" (document "a/c"),
    .putChunks "s" [chunk "1" "d" "a/b", chunk "2" "e" "a/c", chunk "1" "e" "a/d"],
    .dropDocumentsBelow "s" "a/c", .dropChunks "s" ["3"]]

theorem memory_database_agree_sample :
    (∀ request ∈ sampleHistory, request.Portable) ∧
      (perform (.allDocuments "s") (after sampleHistory ({} : MemoryStore))).1.map Answer.plain =
        (perform (.allDocuments "s") (after sampleHistory ({} : Database))).1.map Answer.plain := by
  have hportable : ∀ request ∈ sampleHistory, request.Portable := by
    simp [sampleHistory, Request.Portable, NulFree, maxColumnValue]
  exact ⟨hportable, memory_database_agree sampleHistory hportable (.allDocuments "s") trivial⟩

end CodeIndex
