import CodeIndex.Proofs.Store.History
import CodeIndex.Store.Faulty

/-!
# Stores that fail by a script

A `ScriptedStore` wraps a store and lets any of its calls fail, before or after the call has taken
effect, as a script decides call by call.  It counts the calls that fail, those that the inner store
refuses included, so that a run without failing calls is one that leaves the count alone.

## Main definitions

* `FaultScript` gives each call a `CallFate`; `FaultScript.Early` and `FaultScript.Late` are the
  methods that some call of the script fails before or after its effect.
* `ScriptedStore.Moves` says that a run changed one store only, to a given shelf, and how many calls
  failed in it.

## Main results

* `Reads.scripted` and `Changes.scripted`: how a call of the interface can end.
-/

namespace CodeIndex

/-- What a script makes of a call. -/
inductive CallFate where
  | passes
  | failsBefore (error : StoreError)
  | failsAfter (error : StoreError)
deriving DecidableEq, Repr

/-- The fate of each call, by the number of calls before it and its method. -/
abbrev FaultScript := Nat → Method → CallFate

namespace FaultScript

/-- Some call of the method fails before its effect. -/
def Early (script : FaultScript) (method : Method) : Prop :=
  ∃ earlierCalls error, script earlierCalls method = .failsBefore error

/-- Some call of the method fails after its effect. -/
def Late (script : FaultScript) (method : Method) : Prop :=
  ∃ earlierCalls error, script earlierCalls method = .failsAfter error

end FaultScript

/-- A store whose calls fail by a script. -/
structure ScriptedStore (σ : Type) where
  store : σ
  script : FaultScript
  /-- How many calls have been made. -/
  calls : Nat := 0
  /-- How many of them have failed. -/
  failures : Nat := 0

namespace ScriptedStore

variable {σ α : Type}

/-- What becomes of a call under a fate. -/
def judged (fate : CallFate) (call : StoreCall σ α) : StoreCall σ α :=
  fun s => match fate, call s with
    | .passes, made => made
    | .failsBefore e, _ => (.error e, s)
    | .failsAfter e, (.ok _, s) => (.error e, s)
    | .failsAfter _, (.error e, s) => (.error e, s)

/-- Make a call as the script decides, and count. -/
def scripted (method : Method) (call : StoreCall σ α) : StoreCall (ScriptedStore σ) α :=
  fun s =>
    let (answer, store) := judged (s.script s.calls method) call s.store
    let failures := match answer with
      | .ok _ => s.failures
      | .error _ => s.failures + 1
    (answer, { s with store, calls := s.calls + 1, failures })

instance [RecordStore σ] : RecordStore (ScriptedStore σ) where
  createStore s := scripted .createStore (RecordStore.createStore s)
  hasStore s := scripted .hasStore (RecordStore.hasStore s)
  allStores := scripted .allStores RecordStore.allStores
  dropStore s := scripted .dropStore (RecordStore.dropStore s)
  putDocument s d := scripted .putDocument (RecordStore.putDocument s d)
  putChunks s cs := scripted .putChunks (RecordStore.putChunks s cs)
  findDocument s p := scripted .findDocument (RecordStore.findDocument s p)
  allDocuments s := scripted .allDocuments (RecordStore.allDocuments s)
  findChunks s ids := scripted .findChunks (RecordStore.findChunks s ids)
  dropChunks s ids := scripted .dropChunks (RecordStore.dropChunks s ids)
  dropDocuments s ps := scripted .dropDocuments (RecordStore.dropDocuments s ps)
  dropDocumentsBelow s p := scripted .dropDocumentsBelow (RecordStore.dropDocumentsBelow s p)
  clear s := scripted .clear (RecordStore.clear s)
  stats s := scripted .stats (RecordStore.stats s)

@[simp] theorem store_scripted (method : Method) (call : StoreCall σ α) (s : ScriptedStore σ) :
    (scripted method call s).2.store = (judged (s.script s.calls method) call s.store).2 := rfl

@[simp] theorem fst_scripted (method : Method) (call : StoreCall σ α) (s : ScriptedStore σ) :
    (scripted method call s).1 = (judged (s.script s.calls method) call s.store).1 := rfl

theorem failures_of_ok {method : Method} {call : StoreCall σ α} {s : ScriptedStore σ} {a : α}
    (h : (scripted method call s).1 = .ok a) :
    (scripted method call s).2.failures = s.failures := by
  rw [fst_scripted] at h
  simp only [scripted, h]

theorem failures_of_error {method : Method} {call : StoreCall σ α} {s : ScriptedStore σ}
    {e : StoreError} (h : (scripted method call s).1 = .error e) :
    (scripted method call s).2.failures = s.failures + 1 := by
  rw [fst_scripted] at h
  simp only [scripted, h]

/-- A judged call ends as the call itself, or it fails with the state before or after it. -/
theorem judged_cases (fate : CallFate) (call : StoreCall σ α) (s : σ) :
    (judged fate call s = call s) ∨
      (∃ e, fate = .failsBefore e ∧ judged fate call s = (.error e, s)) ∨
      ∃ e a, fate = .failsAfter e ∧ (call s).1 = .ok a ∧
        judged fate call s = (.error e, (call s).2) := by
  cases fate with
  | passes => exact .inl rfl
  | failsBefore e => exact .inr (.inl ⟨e, rfl, rfl⟩)
  | failsAfter e =>
    cases hcall : call s with
    | mk answer s' => cases answer with
      | ok a => exact .inr (.inr ⟨e, a, rfl, rfl, by simp [judged, hcall]⟩)
      | error inner => exact .inl (by simp [judged, hcall])

/-- Only a call that the store has answered is answered. -/
theorem eq_of_ok {method : Method} {call : StoreCall σ α} {s : ScriptedStore σ} {a : α}
    (h : (scripted method call s).1 = .ok a) :
    judged (s.script s.calls method) call s.store = call s.store := by
  rw [fst_scripted] at h
  obtain hjudged | ⟨e, -, hjudged⟩ | ⟨e, a', -, -, hjudged⟩ :=
    judged_cases (s.script s.calls method) call s.store
  · exact hjudged
  · rw [hjudged] at h
    cases h
  · rw [hjudged] at h
    cases h

theorem call_of_ok {method : Method} {call : StoreCall σ α} {s : ScriptedStore σ} {a : α}
    (h : (scripted method call s).1 = .ok a) : (call s.store).1 = .ok a := by
  rw [← eq_of_ok h, ← fst_scripted, h]

theorem store_of_ok {method : Method} {call : StoreCall σ α} {s : ScriptedStore σ} {a : α}
    (h : (scripted method call s).1 = .ok a) :
    (scripted method call s).2.store = (call s.store).2 := by
  rw [store_scripted, eq_of_ok h]

section Lawful

variable [RecordStore σ] [LawfulStore σ]

open LawfulStore (Valid)

/-! ## Runs on one store -/

/-- A run that changes the store of one name only, with a given number of failing calls. -/
structure Moves (name : String) (after : Option Shelf) (failed : Nat) (s s' : ScriptedStore σ) :
    Prop where
  valid : Valid s'.store
  held : held s'.store = Function.update (held s.store) name after
  script : s'.script = s.script
  failures : s'.failures = s.failures + failed

theorem Moves.held_self {name : String} {after : Option Shelf} {failed : Nat}
    {s s' : ScriptedStore σ} (h : Moves name after failed s s') :
    CodeIndex.held s'.store name = after := by
  rw [h.held, Function.update_self]

theorem Moves.refl {s : ScriptedStore σ} (hs : Valid s.store) {name : String}
    {before : Option Shelf} (h : CodeIndex.held s.store name = before) :
    Moves name before 0 s s where
  valid := hs
  held := by rw [← h, Function.update_eq_self]
  script := rfl
  failures := rfl

theorem Moves.trans {name : String} {middle after : Option Shelf} {m n : Nat}
    {s s' s'' : ScriptedStore σ} (h : Moves name middle m s s') (h' : Moves name after n s' s'') :
    Moves name after (m + n) s s'' where
  valid := h'.valid
  held := by rw [h'.held, h.held, Function.update_idem]
  script := h'.script.trans h.script
  failures := by rw [h'.failures, h.failures, Nat.add_assoc]

/-- A run after one in which no call failed. -/
theorem Moves.followed {name : String} {before after : Option Shelf} {failed : Nat}
    {s s' s'' : ScriptedStore σ} (h : Moves name before 0 s s')
    (h' : Moves name after failed s' s'') : Moves name after failed s s'' := by
  have hboth := h.trans h'
  rwa [Nat.zero_add] at hboth

/-! ## How a call ends -/

/-- How a call that reads a shelf can end: the answer and the number of failing calls. -/
inductive ReadEnd {α : Type} (answers : Shelf → α → Prop) (before : Option Shelf) :
    Except StoreError α → Nat → Prop
  | answered {shelf : Shelf} {a : α} : before = some shelf → answers shelf a →
      ReadEnd answers before (.ok a) 0
  | failed {e : StoreError} : ReadEnd answers before (.error e) 1

/-- How a call that changes a shelf can end: the answer, the shelf after it and the number of
failing calls. -/
inductive ChangeEnd {α : Type} (script : FaultScript) (method : Method) (able : Prop)
    (before : Shelf) (change : Shelf → Shelf) : Except StoreError α → Shelf → Nat → Prop
  | made {a : α} : ChangeEnd script method able before change (.ok a) (change before) 0
  | early {e : StoreError} : (able → script.Early method) →
      ChangeEnd script method able before change (.error e) before 1
  | late {e : StoreError} : script.Late method →
      ChangeEnd script method able before change (.error e) (change before) 1

/-- A call that does not change its state, judged or not, leaves everything in place. -/
theorem moves_of_snd_eq {method : Method} {call : StoreCall σ α} {s : ScriptedStore σ}
    (hs : Valid s.store) (h : (call s.store).2 = s.store) {name : String} {failed : Nat}
    (hfailed : (scripted method call s).2.failures = s.failures + failed) :
    Moves name (CodeIndex.held s.store name) failed s (scripted method call s).2 := by
  have hstore : (scripted method call s).2.store = s.store := by
    rw [store_scripted]
    obtain hjudged | ⟨e, -, hjudged⟩ | ⟨e, a, -, -, hjudged⟩ :=
      judged_cases (s.script s.calls method) call s.store
    · rw [hjudged, h]
    · rw [hjudged]
    · rw [hjudged, h]
  refine ⟨by rwa [hstore], ?_, rfl, hfailed⟩
  rw [hstore, Function.update_eq_self]

end Lawful

end ScriptedStore

section Lawful

open ScriptedStore
open LawfulStore (Valid)

variable {σ α : Type} [RecordStore σ] [LawfulStore σ]

theorem Reads.scripted {name : String} {call : StoreCall σ α} {answers : Shelf → α → Prop}
    (h : Reads (Valid : σ → Prop) name call answers) (method : Method) {s : ScriptedStore σ}
    (hs : Valid s.store) :
    ∃ failed, ReadEnd answers (held s.store name) (scripted method call s).1 failed ∧
      Moves name (held s.store name) failed s (scripted method call s).2 := by
  obtain ⟨hstate, hanswer⟩ := h s.store hs
  cases hanswered : (ScriptedStore.scripted method call s).1 with
  | error e => exact ⟨1, .failed, moves_of_snd_eq hs hstate (failures_of_error hanswered)⟩
  | ok a =>
    refine ⟨0, ?_, moves_of_snd_eq hs hstate (failures_of_ok hanswered)⟩
    have hcall := call_of_ok hanswered
    cases hheld : held s.store name with
    | none =>
      simp only [hheld, hcall] at hanswer
      cases hanswer
    | some shelf =>
      simp only [hheld, hcall] at hanswer
      obtain ⟨a', ha', hshelf⟩ := hanswer
      cases ha'
      exact .answered rfl hshelf

theorem Changes.scripted {name : String} {call : StoreCall σ α} {change : Shelf → Shelf}
    {able : Prop} (h : Changes (Valid : σ → Prop) name call change able) (method : Method)
    {s : ScriptedStore σ} (hs : Valid s.store) {before : Shelf}
    (hbefore : held s.store name = some before) :
    ∃ after failed, ChangeEnd s.script method able before change (scripted method call s).1 after
        failed ∧ Moves name (some after) failed s (scripted method call s).2 := by
  have hvalid := h.valid s.store hs
  cases hanswered : (ScriptedStore.scripted method call s).1 with
  | ok a =>
    have hcall := call_of_ok hanswered
    refine ⟨change before, 0, .made, ?_, ?_, rfl, failures_of_ok hanswered⟩
    · rwa [store_of_ok hanswered]
    · rw [store_of_ok hanswered]
      exact h.taken s.store before a hs hbefore hcall
  | error e =>
    have hfailures := failures_of_error hanswered
    obtain hjudged | ⟨e', hfate, hjudged⟩ | ⟨e', a, hfate, hcall, hjudged⟩ :=
      judged_cases (s.script s.calls method) call s.store
    · -- The store itself refused.
      have hcall : (call s.store).1 = .error e := by rw [← hjudged, ← fst_scripted, hanswered]
      refine ⟨before, 1, .early fun hable => ?_, ?_, ?_, rfl, hfailures⟩
      · obtain ⟨a, ha⟩ := h.succeeds s.store before hs hbefore hable
        rw [ha] at hcall
        cases hcall
      · rwa [store_scripted, hjudged]
      · rw [store_scripted, hjudged, h.refused s.store e hs hcall, ← hbefore,
          Function.update_eq_self]
    · refine ⟨before, 1, .early fun _ => ⟨s.calls, e', hfate⟩, ?_, ?_, rfl, hfailures⟩
      · rwa [store_scripted, hjudged]
      · rw [store_scripted, hjudged, ← hbefore, Function.update_eq_self]
    · refine ⟨change before, 1, .late ⟨s.calls, e', hfate⟩, ?_, ?_, rfl, hfailures⟩
      · rwa [store_scripted, hjudged]
      · rw [store_scripted, hjudged]
        exact h.taken s.store before a hs hbefore hcall

/-- A call that the store grants is answered, or it fails before or after its effect. -/
theorem granted_scripted {name : String} {call : StoreCall σ α} {a : α} {after : Option Shelf}
    (method : Method) {s : ScriptedStore σ} (hs : Valid s.store)
    (hanswer : (call s.store).1 = .ok a) (hvalid : Valid (call s.store).2)
    (hheld : held (call s.store).2 = Function.update (held s.store) name after) :
    ((scripted method call s).1 = .ok a ∧ Moves name after 0 s (scripted method call s).2) ∨
      ∃ e, (scripted method call s).1 = .error e ∧
        (Moves name (held s.store name) 1 s (scripted method call s).2 ∨
          Moves name after 1 s (scripted method call s).2) := by
  cases hanswered : (ScriptedStore.scripted method call s).1 with
  | ok a' =>
    obtain rfl : a = a' := by
      rw [call_of_ok hanswered] at hanswer
      exact (Except.ok.inj hanswer).symm
    have hstore := store_of_ok hanswered
    exact .inl ⟨rfl, by rwa [hstore], by rw [hstore, hheld], rfl, failures_of_ok hanswered⟩
  | error e =>
    refine .inr ⟨e, rfl, ?_⟩
    have hfailures := failures_of_error hanswered
    obtain hjudged | ⟨e', -, hjudged⟩ | ⟨e', a', -, -, hjudged⟩ :=
      judged_cases (s.script s.calls method) call s.store
    · rw [fst_scripted, hjudged, hanswer] at hanswered
      cases hanswered
    · refine .inl ⟨by rwa [store_scripted, hjudged], ?_, rfl, hfailures⟩
      rw [store_scripted, hjudged, Function.update_eq_self]
    · refine .inr ⟨by rwa [store_scripted, hjudged], ?_, rfl, hfailures⟩
      rw [store_scripted, hjudged, hheld]

theorem hasStore_scripted (name : String) {s : ScriptedStore σ} (hs : Valid s.store) :
    ((RecordStore.hasStore name s).1 = .ok (held s.store name).isSome ∧
        Moves name (held s.store name) 0 s (RecordStore.hasStore name s).2) ∨
      ∃ e, (RecordStore.hasStore name s).1 = .error e ∧
        Moves name (held s.store name) 1 s (RecordStore.hasStore name s).2 := by
  obtain ⟨answer, hanswer⟩ := LawfulStore.hasStore name s.store hs
  have hheld : held (RecordStore.hasStore name s.store).2 =
      Function.update (held s.store) name (held s.store name) := by
    rw [hanswer, Function.update_eq_self]
  obtain h | ⟨e, he, h | h⟩ := granted_scripted .hasStore hs (hasStore_eq hs name)
    (by rwa [hanswer]) hheld
  · exact .inl h
  · exact .inr ⟨e, he, h⟩
  · exact .inr ⟨e, he, h⟩

theorem createStore_scripted (name : String) {s : ScriptedStore σ} (hs : Valid s.store) :
    ((RecordStore.createStore name s).1 = .ok () ∧
        Moves name (some ((held s.store name).getD {})) 0 s (RecordStore.createStore name s).2) ∨
      ∃ e, (RecordStore.createStore name s).1 = .error e ∧
        (Moves name (held s.store name) 1 s (RecordStore.createStore name s).2 ∨
          Moves name (some ((held s.store name).getD {})) 1 s
            (RecordStore.createStore name s).2) := by
  obtain ⟨hvalid, hanswer, hheld⟩ := LawfulStore.createStore name s.store hs
  exact granted_scripted .createStore hs hanswer hvalid hheld

theorem dropStore_scripted (name : String) {s : ScriptedStore σ} (hs : Valid s.store) :
    ((RecordStore.dropStore name s).1 = .ok () ∧
        Moves name none 0 s (RecordStore.dropStore name s).2) ∨
      ∃ e, (RecordStore.dropStore name s).1 = .error e ∧
        (Moves name (held s.store name) 1 s (RecordStore.dropStore name s).2 ∨
          Moves name none 1 s (RecordStore.dropStore name s).2) := by
  obtain ⟨hvalid, hanswer, hheld⟩ := LawfulStore.dropStore name s.store hs
  exact granted_scripted .dropStore hs hanswer hvalid hheld

end Lawful

end CodeIndex
