import CodeIndex.Index.Indexer
import CodeIndex.Proofs.Store.Scripted

/-!
# Outcomes of index operations

An operation of the index is run by `Indexing.outcome`, which gives its answer and the state that it
has reached.  The lemmas here take such a run apart, one step of the operation at a time.

## Main results

* `outcome_bind_cases`: either the first part fails, or the second part starts where it has ended.
* `outcome_read_cases` and `outcome_change_cases`: how a run goes on after a store call.
-/

namespace CodeIndex

namespace Indexing

variable {σ α β : Type}

/-- The answer of an operation and the state that it reaches. -/
def outcome (operation : Indexing σ α) (st : IndexState σ) :
    Except IndexError α × IndexState σ :=
  operation.run.run st

@[simp] theorem outcome_pure (a : α) (st : IndexState σ) :
    outcome (pure a : Indexing σ α) st = (.ok a, st) := rfl

@[simp] theorem outcome_throw (e : IndexError) (st : IndexState σ) :
    outcome (throw e : Indexing σ α) st = (.error e, st) := rfl

@[simp] theorem outcome_get (st : IndexState σ) :
    outcome (get : Indexing σ (IndexState σ)) st = (.ok st, st) := rfl

@[simp] theorem outcome_set (st st' : IndexState σ) :
    outcome (set st' : Indexing σ PUnit) st = (.ok ⟨⟩, st') := rfl

theorem outcome_bind (first : Indexing σ α) (next : α → Indexing σ β) (st : IndexState σ) :
    outcome (first >>= next) st = match outcome first st with
      | (.ok a, st) => outcome (next a) st
      | (.error e, st) => (.error e, st) := by
  cases h : first.run.run st with
  | mk answer st' =>
    have hrun : outcome first st = (answer, st') := h
    rw [hrun, outcome, ExceptT.run_bind, StateT.run_bind, h]
    cases answer <;> rfl

/-- A run of two parts, taken apart. -/
theorem outcome_bind_cases {first : Indexing σ α} {next : α → Indexing σ β} {st st' : IndexState σ}
    {answer : Except IndexError β} (h : outcome (first >>= next) st = (answer, st')) :
    (∃ a middle, outcome first st = (.ok a, middle) ∧ outcome (next a) middle = (answer, st')) ∨
      ∃ e, answer = .error e ∧ outcome first st = (.error e, st') := by
  rw [outcome_bind] at h
  cases hfirst : outcome first st with
  | mk found middle =>
    rw [hfirst] at h
    cases found with
    | ok a => exact .inl ⟨a, middle, rfl, h⟩
    | error e =>
      obtain ⟨rfl, rfl⟩ := Prod.mk.inj h
      exact .inr ⟨e, rfl, rfl⟩

@[simp] theorem outcome_map (f : α → β) (operation : Indexing σ α) (st : IndexState σ) :
    outcome (f <$> operation) st =
      ((outcome operation st).1.map f, (outcome operation st).2) := by
  rw [map_eq_pure_bind, outcome_bind]
  cases outcome operation st with
  | mk answer st' => cases answer <;> rfl

theorem outcome_map_cases {f : α → β} {operation : Indexing σ α} {st st' : IndexState σ}
    {answer : Except IndexError β} (h : outcome (f <$> operation) st = (answer, st')) :
    ∃ found, outcome operation st = (found, st') ∧ answer = found.map f := by
  rw [outcome_map] at h
  obtain ⟨rfl, rfl⟩ := Prod.mk.inj h
  exact ⟨_, rfl, rfl⟩

@[simp] theorem outcome_discard (operation : Indexing σ α) (st : IndexState σ) :
    outcome (discard operation) st =
      ((outcome operation st).1.map fun _ => ⟨⟩, (outcome operation st).2) :=
  outcome_map (Function.const α PUnit.unit) operation st

@[simp] theorem outcome_attempt (operation : Indexing σ α) (st : IndexState σ) :
    outcome (attempt operation) st =
      (.ok (outcome operation st).1, (outcome operation st).2) := rfl

theorem outcome_call (request : StoreCall σ α) (st : IndexState σ) :
    outcome (call request) st =
      ((request st.store).1.mapError .ofStore, { st with store := (request st.store).2 }) := by
  cases h : request st.store with
  | mk answer store =>
    simp only [call, outcome_bind, outcome_get, outcome_set, h]
    cases answer <;> rfl

/-! ## Store calls -/

section Lawful

open ScriptedStore
open LawfulStore (Valid)

variable [RecordStore σ] [LawfulStore σ] {name : String} {call : StoreCall σ α}
  {next : α → Indexing (ScriptedStore σ) β} {st st' : IndexState (ScriptedStore σ)}
  {answer : Except IndexError β} {method : Method} {before : Shelf}

/-- A run that starts by reading a shelf. -/
theorem outcome_read_cases {answers : Shelf → α → Prop}
    (hreads : Reads (Valid : σ → Prop) name call answers) (hst : Valid st.store.store)
    (hbefore : held st.store.store name = some before)
    (h : outcome (Indexing.call (scripted method call) >>= next) st = (answer, st')) :
    (∃ a middle, answers before a ∧ Moves name (some before) 0 st.store middle.store ∧
        outcome (next a) middle = (answer, st')) ∨
      ∃ e, answer = .error (.ofStore e) ∧ Moves name (some before) 1 st.store st'.store := by
  obtain ⟨failed, hend, hmoves⟩ := hreads.scripted method hst
  rw [hbefore] at hend hmoves
  rw [outcome_bind, outcome_call] at h
  generalize (scripted method call st.store).1 = answered at h hend
  cases hend with
  | answered hshelf ha =>
    obtain rfl := Option.some.inj hshelf
    exact .inl ⟨_, _, ha, hmoves, h⟩
  | failed =>
    obtain ⟨rfl, rfl⟩ := Prod.mk.inj h
    exact .inr ⟨_, rfl, hmoves⟩

/-- A run that starts by changing a shelf. -/
theorem outcome_change_cases {change : Shelf → Shelf} {able : Prop}
    (hchanges : Changes (Valid : σ → Prop) name call change able) (hst : Valid st.store.store)
    (hbefore : held st.store.store name = some before)
    (h : outcome (Indexing.call (scripted method call) >>= next) st = (answer, st')) :
    (∃ a middle, Moves name (some (change before)) 0 st.store middle.store ∧
        outcome (next a) middle = (answer, st')) ∨
      ∃ e after, answer = .error (.ofStore e) ∧
        ChangeEnd (α := α) st.store.script method able before change (.error e) after 1 ∧
        Moves name (some after) 1 st.store st'.store := by
  obtain ⟨after, failed, hend, hmoves⟩ := hchanges.scripted method hst hbefore
  rw [outcome_bind, outcome_call] at h
  generalize (scripted method call st.store).1 = answered at h hend
  cases answered with
  | ok a =>
    cases hend with
    | made => exact .inl ⟨a, _, hmoves, h⟩
  | error e =>
    obtain rfl : failed = 1 := by cases hend <;> rfl
    obtain ⟨rfl, rfl⟩ := Prod.mk.inj h
    exact .inr ⟨e, after, rfl, hend, hmoves⟩

/-- A run that starts by asking whether a store is there. -/
theorem outcome_hasStore_cases {next : Bool → Indexing (ScriptedStore σ) β}
    (hst : Valid st.store.store)
    (h : outcome (Indexing.call (RecordStore.hasStore name) >>= next) st = (answer, st')) :
    (∃ middle, Moves name (held st.store.store name) 0 st.store middle.store ∧
        outcome (next (held st.store.store name).isSome) middle = (answer, st')) ∨
      ∃ e, answer = .error (.ofStore e) ∧
        Moves name (held st.store.store name) 1 st.store st'.store := by
  rw [outcome_bind, outcome_call] at h
  obtain ⟨hanswer, hmoves⟩ | ⟨e, hanswer, hmoves⟩ := hasStore_scripted name hst
  all_goals rw [hanswer] at h
  · exact .inl ⟨_, hmoves, h⟩
  · obtain ⟨rfl, rfl⟩ := Prod.mk.inj h
    exact .inr ⟨e, rfl, hmoves⟩

end Lawful

/-! ## Parts that leave the store alone -/

/-- An operation that makes no store call. -/
def Storeless (operation : Indexing σ α) : Prop :=
  ∀ st, (outcome operation st).2.store = st.store

theorem storeless_pure (a : α) : Storeless (pure a : Indexing σ α) := fun _ => rfl

theorem storeless_throw (e : IndexError) : Storeless (throw e : Indexing σ α) := fun _ => rfl

theorem Storeless.bind {first : Indexing σ α} {next : α → Indexing σ β} (hfirst : Storeless first)
    (hnext : ∀ a, Storeless (next a)) : Storeless (first >>= next) := by
  intro st
  have hstore := hfirst st
  rw [outcome_bind]
  cases h : outcome first st with
  | mk answer middle =>
    rw [h] at hstore
    cases answer with
    | ok a => exact (hnext a middle).trans hstore
    | error e => exact hstore

theorem Storeless.moves [RecordStore σ] [LawfulStore σ]
    {operation : Indexing (ScriptedStore σ) α} (hoperation : Storeless operation) {name : String}
    {after : Option Shelf} {failed : Nat} {s : ScriptedStore σ}
    {st st' : IndexState (ScriptedStore σ)} {answer : Except IndexError α}
    (hmoves : ScriptedStore.Moves name after failed s st.store)
    (h : outcome operation st = (answer, st')) :
    ScriptedStore.Moves name after failed s st'.store := by
  have hstore := hoperation st
  rw [h] at hstore
  rwa [hstore]

theorem Storeless.store_eq {operation : Indexing (ScriptedStore σ) α}
    (hoperation : Storeless operation) {st st' : IndexState (ScriptedStore σ)}
    {answer : Except IndexError α} (h : outcome operation st = (answer, st')) :
    st'.store.store = st.store.store := by
  have hstore := hoperation st
  rw [h] at hstore
  exact congrArg ScriptedStore.store hstore

theorem storeless_checkpoint : Storeless (checkpoint : Indexing σ Unit) := by
  intro st
  simp only [checkpoint, outcome_bind, outcome_get, outcome_set]
  split <;> rfl

theorem checkpoint_error {st st' : IndexState σ} {e : IndexError}
    (h : outcome checkpoint st = (.error e, st')) : e = .cancelled := by
  simp only [checkpoint, outcome_bind, outcome_get, outcome_set] at h
  split at h
  · exact (Except.error.inj (Prod.mk.inj h).1).symm
  · cases (Prod.mk.inj h).1

/-! ## Parts that are not cancelled -/

/-- An operation that is not told to stop. -/
def Unstoppable (operation : Indexing σ α) : Prop :=
  ∀ st, (outcome operation st).1 ≠ .error .cancelled

theorem unstoppable_pure (a : α) : Unstoppable (pure a : Indexing σ α) := fun _ => nofun

theorem unstoppable_throw {e : IndexError} (h : e ≠ .cancelled) :
    Unstoppable (throw e : Indexing σ α) :=
  fun _ hcancelled => h (Except.error.inj hcancelled)

theorem Unstoppable.bind {first : Indexing σ α} {next : α → Indexing σ β}
    (hfirst : Unstoppable first) (hnext : ∀ a, Unstoppable (next a)) :
    Unstoppable (first >>= next) := by
  intro st hcancelled
  have hnever := hfirst st
  rw [outcome_bind] at hcancelled
  generalize outcome first st = made at hcancelled hnever
  obtain ⟨answer, middle⟩ := made
  cases answer with
  | ok a => exact hnext a middle hcancelled
  | error e => exact hnever (congrArg Except.error (Except.error.inj hcancelled))

theorem Unstoppable.discard {operation : Indexing σ α} (h : Unstoppable operation) :
    Unstoppable (discard operation) := by
  intro st hcancelled
  have hnever := h st
  rw [outcome_discard] at hcancelled
  generalize (outcome operation st).1 = answer at hcancelled hnever
  cases answer with
  | ok a => cases hcancelled
  | error e => exact hnever (congrArg Except.error (Except.error.inj hcancelled))

theorem unstoppable_call (request : StoreCall σ α) : Unstoppable (call request) := by
  intro st hcancelled
  rw [outcome_call] at hcancelled
  generalize (request st.store).1 = answer at hcancelled
  cases answer with
  | ok a => cases hcancelled
  | error e => cases e <;> cases Except.error.inj hcancelled

theorem unstoppable_attempt (operation : Indexing σ α) : Unstoppable (attempt operation) :=
  fun _ => nofun

end Indexing

namespace Indexer

open Indexing

variable {σ : Type}

theorem storeless_cut (indexer : Indexer) (text : List Char) (language : Language) :
    Storeless (indexer.cut text language : Indexing σ (List Chunk)) := by
  intro st
  simp only [cut, outcome_bind, outcome_get, outcome_set]
  split <;> rfl

theorem storeless_embed (embedder : Embedder) (texts : List String) :
    Storeless (embed embedder texts : Indexing σ (List Vector32)) := by
  intro st
  simp only [embed, outcome_bind, outcome_get, outcome_set]
  split <;> rfl

theorem storeless_withVectors (embedder : Embedder) (path : String) (chunks : List Chunk)
    (records : List ChunkRecord) :
    Storeless (withVectors embedder path chunks records : Indexing σ (List ChunkRecord)) := by
  unfold withVectors
  split
  · exact storeless_pure records
  · refine (storeless_embed embedder _).bind fun vectors => ?_
    split
    · exact (storeless_throw _).bind fun _ => storeless_pure _
    · exact storeless_pure _

theorem storeless_records (indexer : Indexer) (documentId path : String) (text : List Char)
    (language : Language) :
    Storeless (indexer.records documentId path text language : Indexing σ (List ChunkRecord)) := by
  unfold records
  refine (indexer.storeless_cut text language).bind fun chunks => ?_
  split
  · exact storeless_pure _
  · exact storeless_withVectors _ path chunks _

end Indexer

end CodeIndex
