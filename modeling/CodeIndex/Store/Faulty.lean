import CodeIndex.Store.Interface

/-!
# Stores that fail

A wrapper around any store that lets chosen calls fail, before or after they have taken effect.  It
serves to find out, and to state, what the index does when its store fails.

## Main definitions

* `Method` names a call of the interface, `Fault` says which of its calls fail and how.
* `FaultyStore` is a store together with its faults, itself a `RecordStore`.
-/

namespace CodeIndex

/-- A call of the interface by name. -/
inductive Method where
  | createStore | hasStore | allStores | dropStore | putDocument | putChunks
  | findDocument | allDocuments | findChunks | dropChunks | dropDocuments
  | dropDocumentsBelow | clear | stats
deriving DecidableEq, Repr

namespace Method

/-- Every call once. -/
def all : List Method :=
  [createStore, hasStore, allStores, dropStore, putDocument, putChunks, findDocument,
    allDocuments, findChunks, dropChunks, dropDocuments, dropDocumentsBelow, clear, stats]

/-- The name of a call. -/
def name : Method → String
  | createStore => "create_store"
  | hasStore => "store_exists"
  | allStores => "list_stores"
  | dropStore => "delete_store"
  | putDocument => "upsert_document"
  | putChunks => "upsert_chunks"
  | findDocument => "get_document"
  | allDocuments => "list_documents"
  | findChunks => "fetch_chunks"
  | dropChunks => "delete_chunks"
  | dropDocuments => "delete_documents"
  | dropDocumentsBelow => "delete_by_path_prefix"
  | clear => "clear"
  | stats => "stats"

/-- The call of a name. -/
def ofName? (name : String) : Option Method := all.find? (·.name == name)

end Method

/-- The kinds of errors that a fault can raise. -/
inductive FaultKind where
  | other | notFound | missingVector | invalidId | poisoned
deriving DecidableEq, Repr

/-- Which of the next calls fail: first some calls pass, then some fail, then all pass again. -/
structure Fault where
  kind : FaultKind := .other
  skip : Nat := 0
  times : Nat := 1
  /-- Whether the call takes effect before it fails. -/
  after : Bool := false
deriving DecidableEq, Repr

namespace Fault

/-- The error that a fault raises in a call on a store. -/
def error (fault : Fault) (method : Method) (store : String) : StoreError :=
  match fault.kind with
  | .other => .other ("injected " ++ method.name)
  | .notFound => .storeNotFound store
  | .missingVector => .missingVector "feedfacefeedface"
  | .invalidId => .invalidId "xyz"
  | .poisoned => .poisoned "test"

/-- Whether the next call fails, and the fault after it. -/
def advance (fault : Fault) : Bool × Fault :=
  if 0 < fault.skip then (false, { fault with skip := fault.skip - 1 })
  else if 0 < fault.times then (true, { fault with times := fault.times - 1 })
  else (false, fault)

end Fault

/-- A store some of whose calls fail. -/
structure FaultyStore (σ : Type) where
  store : σ
  faults : List (Method × Fault) := []

namespace FaultyStore

variable {σ : Type}

/-- Let calls of a method fail, whatever was said about the method before. -/
def arm (s : FaultyStore σ) (method : Method) (fault : Fault) : FaultyStore σ :=
  { s with faults := (method, fault) :: s.faults.filter (·.1 ≠ method) }

/-- The fault that the next call of a method meets, and the faults after that call. -/
def next (s : FaultyStore σ) (method : Method) : Option Fault × FaultyStore σ :=
  match s.faults.find? (·.1 = method) with
  | none => (none, s)
  | some (_, fault) =>
    let (fails, rest) := fault.advance
    (if fails then some fault else none, s.arm method rest)

/-- Make a call that may meet a fault. -/
def guarded {α : Type} (method : Method) (name : String) (call : StoreCall σ α) :
    StoreCall (FaultyStore σ) α :=
  fun s => match s.next method with
    | (none, s) =>
      let (answer, inner) := call s.store
      (answer, { s with store := inner })
    | (some fault, s) =>
      if fault.after then
        match call s.store with
        | (.ok _, inner) => (.error (fault.error method name), { s with store := inner })
        | (.error e, inner) => (.error e, { s with store := inner })
      else (.error (fault.error method name), s)

instance [RecordStore σ] : RecordStore (FaultyStore σ) where
  createStore s := guarded .createStore s (RecordStore.createStore s)
  hasStore s := guarded .hasStore s (RecordStore.hasStore s)
  allStores := guarded .allStores "" RecordStore.allStores
  dropStore s := guarded .dropStore s (RecordStore.dropStore s)
  putDocument s d := guarded .putDocument s (RecordStore.putDocument s d)
  putChunks s cs := guarded .putChunks s (RecordStore.putChunks s cs)
  findDocument s p := guarded .findDocument s (RecordStore.findDocument s p)
  allDocuments s := guarded .allDocuments s (RecordStore.allDocuments s)
  findChunks s ids := guarded .findChunks s (RecordStore.findChunks s ids)
  dropChunks s ids := guarded .dropChunks s (RecordStore.dropChunks s ids)
  dropDocuments s ps := guarded .dropDocuments s (RecordStore.dropDocuments s ps)
  dropDocumentsBelow s p := guarded .dropDocumentsBelow s (RecordStore.dropDocumentsBelow s p)
  clear s := guarded .clear s (RecordStore.clear s)
  stats s := guarded .stats s (RecordStore.stats s)

end FaultyStore

end CodeIndex
