import CodeIndex.Assembly
import CodeIndex.Proofs.Chunk.Calm
import CodeIndex.Proofs.Index.FileRun
import CodeIndex.Proofs.Store.Lockstep

/-!
# Runs side by side

The run of an operation with some token beside a calm run, whose token never fires.  As long as the
first one is not cancelled, the two make the same store calls and give the same answers.  Each part
of the index gets one lemma for this, and `InStep.bind` puts them together.

## Main definitions

* `Indexer.CalmedBy` says that nothing fires the token of the calm run, and that apart from that the
  chunker and the embedder are the same.
* `Abreast` says how far two runs have got, and `InStep` that two operations keep them there.

## Main results

* `Config.calmedBy_indexer`: an indexer that a configuration describes needs no calming.
* `Indexer.CalmedBy.indexFile`: indexing a file keeps two runs in step.
-/

namespace CodeIndex

/-- The calm indexer does what the other one does where that is not told to stop. -/
structure Indexer.CalmedBy (indexer calm : Indexer) : Prop where
  chunker : indexer.chunker.CalmedBy calm.chunker
  embedder : Option.Rel Embedder.CalmedBy indexer.embedder calm.embedder
  options : calm.options = indexer.options

/-- The indexer of a configuration is calm already: only the token can stop it. -/
theorem Config.calmedBy_indexer (config : Config) :
    (config.indexer config.embedder).CalmedBy (config.indexer config.embedder) where
  chunker := ⟨Grammar.calmedBy_self, rfl⟩
  embedder := by
    unfold Config.indexer Config.embedder
    cases config.store.backend with
    | vector => exact .some (Embedding.calmedBy_hashing _)
    | relational | memory => exact .none
  options := rfl

theorem SourceFile.sameVersion_document (file : SourceFile) (now now' : Int) :
    (file.document now).SameVersion (file.document now') :=
  ⟨rfl, rfl, rfl, rfl, rfl⟩

namespace Indexing

variable {σ α β : Type} {R : σ → σ → Prop}

/-- Two runs have got to related stores after as many calls of the embedder, and the second one is
never told to stop. -/
structure Abreast (R : σ → σ → Prop) (st st' : IndexState σ) : Prop where
  store : R st.store st'.store
  embedCalls : st.embedCalls = st'.embedCalls
  token : st'.token = .never

/-- Two operations have related answers and leave runs abreast that are abreast, unless the first
one is cancelled. -/
def InStep (R : σ → σ → Prop) (Q : α → α → Prop) (operation calm : Indexing σ α) : Prop :=
  ∀ st st', Abreast R st st' →
    (outcome operation st).1 = .error .cancelled ∨
      Matches Q (outcome operation st).1 (outcome calm st').1 ∧
        Abreast R (outcome operation st).2 (outcome calm st').2

namespace InStep

theorem pure {Q : α → α → Prop} {a a' : α} (h : Q a a') :
    InStep R Q (Pure.pure a : Indexing σ α) (Pure.pure a') :=
  fun _ _ hst => .inr ⟨.ok h, hst⟩

theorem throw {Q : α → α → Prop} (e : IndexError) :
    InStep R Q (MonadExcept.throw e : Indexing σ α) (MonadExcept.throw e) :=
  fun _ _ hst => .inr ⟨.error, hst⟩

/-- An answer that is there already. -/
theorem ofExcept (answer : Except IndexError α) :
    InStep R Eq (ExceptT.mk (Pure.pure answer) : Indexing σ α) (ExceptT.mk (Pure.pure answer)) :=
  fun _ _ hst => .inr ⟨.of_eq rfl, hst⟩

theorem get : InStep R (Abreast R) (MonadState.get : Indexing σ (IndexState σ)) MonadState.get :=
  fun _ _ hst => .inr ⟨.ok hst, hst⟩

theorem bind {Q : α → α → Prop} {Q' : β → β → Prop} {first first' : Indexing σ α}
    {next next' : α → Indexing σ β} (hfirst : InStep R Q first first')
    (hnext : ∀ a a', Q a a' → InStep R Q' (next a) (next' a')) :
    InStep R Q' (first >>= next) (first' >>= next') := by
  intro st st' hst
  have hran := hfirst st st' hst
  rw [outcome_bind, outcome_bind]
  generalize outcome first st = ran, outcome first' st' = ran' at hran
  obtain ⟨answer, st₁⟩ := ran
  obtain ⟨answer', st₁'⟩ := ran'
  obtain hcancelled | ⟨hanswer, hst₁⟩ := hran
  · obtain rfl : answer = .error .cancelled := hcancelled
    exact .inl rfl
  · cases hanswer with
    | ok hQ => exact hnext _ _ hQ st₁ st₁' hst₁
    | error => exact .inr ⟨.error, hst₁⟩

theorem call {Q : α → α → Prop} {request request' : StoreCall σ α}
    (h : Keeps R Q request request') : InStep R Q (call request) (call request') := by
  intro st st' hst
  obtain ⟨hanswer, hstore⟩ := h st.store st'.store hst.store
  rw [outcome_call, outcome_call]
  refine .inr ⟨?_, hstore, hst.embedCalls, hst.token⟩
  generalize (request st.store).1 = answer, (request' st'.store).1 = answer' at hanswer
  cases hanswer with
  | ok hQ => exact .ok hQ
  | error => exact .error

/-- The error of an operation that is not cancelled can be looked at. -/
theorem attempt {Q : α → α → Prop} {operation calm : Indexing σ α} (h : InStep R Q operation calm)
    (hnever : Unstoppable operation) :
    InStep R (Matches Q) (attempt operation) (attempt calm) := by
  intro st st' hst
  obtain hcancelled | ⟨hanswer, hst₁⟩ := h st st' hst
  · exact absurd hcancelled (hnever st)
  · exact .inr ⟨.ok hanswer, hst₁⟩

theorem discard {Q : α → α → Prop} {operation calm : Indexing σ α}
    (h : InStep R Q operation calm) : InStep R Eq (discard operation) (discard calm) := by
  intro st st' hst
  rw [outcome_discard, outcome_discard]
  obtain hcancelled | ⟨hanswer, hst₁⟩ := h st st' hst
  · rw [hcancelled]
    exact .inl rfl
  · refine .inr ⟨?_, hst₁⟩
    generalize (outcome operation st).1 = answer, (outcome calm st').1 = answer' at hanswer
    cases hanswer with
    | ok _ => exact .ok rfl
    | error => exact .error

theorem checkpoint : InStep R Eq (checkpoint : Indexing σ Unit) checkpoint := by
  intro st st' hst
  simp only [Indexing.checkpoint, outcome_bind, outcome_get, outcome_set, hst.token,
    Cancellation.poll_never]
  split
  · exact .inl rfl
  · exact .inr ⟨.ok rfl, hst.store, hst.embedCalls, rfl⟩

/-- The calm run of an operation that was not cancelled. -/
theorem follows {operation calm : Indexing σ α} (h : InStep R Eq operation calm)
    {st st' st₁ : IndexState σ} {answer : Except IndexError α} (hst : Abreast R st st')
    (hrun : outcome operation st = (answer, st₁)) (hanswer : answer ≠ .error .cancelled) :
    ∃ st₁', outcome calm st' = (answer, st₁') ∧ Abreast R st₁ st₁' := by
  have hran := h st st' hst
  rw [hrun] at hran
  obtain ⟨hsame, hst₁⟩ := hran.resolve_left hanswer
  exact ⟨(outcome calm st').2, Prod.ext hsame.eq.symm rfl, hst₁⟩

end InStep

end Indexing

/-! ## The parts of the index -/

open Indexing

namespace Indexer

variable {σ : Type} {R : σ → σ → Prop}

theorem outcome_embed (embedder : Embedder) (texts : List String) (st : IndexState σ) :
    outcome (embed embedder texts) st =
      ((embedder.embed st.embedCalls texts st.token).1.mapError .ofEmbed,
        { st with
          token := (embedder.embed st.embedCalls texts st.token).2
          embedCalls := st.embedCalls + 1 }) := by
  cases h : embedder.embed st.embedCalls texts st.token with
  | mk answer token =>
    simp only [embed, outcome_bind, outcome_get, h, outcome_set]
    cases answer <;> rfl

theorem inStep_embed {embedder calm : Embedder} (h : embedder.CalmedBy calm)
    (texts : List String) :
    InStep R Eq (embed embedder texts : Indexing σ (List Vector32)) (embed calm texts) := by
  intro st st' hst
  rw [outcome_embed, outcome_embed, hst.token, ← hst.embedCalls,
    h.embed st.embedCalls texts st.token]
  exact .inr ⟨.of_eq rfl, hst.store, rfl, rfl⟩

theorem inStep_withVectors {embedder calm : Embedder} (h : embedder.CalmedBy calm) (path : String)
    (chunks : List Chunk) (records : List ChunkRecord) :
    InStep R Eq (withVectors embedder path chunks records : Indexing σ (List ChunkRecord))
      (withVectors calm path chunks records) := by
  unfold withVectors
  split
  · exact .pure rfl
  · refine (inStep_embed h _).bind ?_
    rintro vectors _ rfl
    rw [h.name]
    split
    · exact .throw _
    · exact .pure rfl

theorem inStep_checkExists [RecordStore σ] (hR : Lockstep R) (store : String) :
    InStep R Eq (checkExists store) (checkExists store) := by
  unfold checkExists
  refine (InStep.call (hR.hasStore store)).bind ?_
  rintro there _ rfl
  split
  · exact .throw _
  · exact .pure rfl

/-- Writing part of a file. -/
theorem inStep_writing [RecordStore σ] (hR : Lockstep R) (store : String) (ids : List String)
    {request request' : StoreCall σ Unit} (h : Keeps R Eq request request') :
    InStep R Eq (writing store ids request) (writing store ids request') := by
  unfold writing
  refine ((InStep.call h).attempt (unstoppable_call _)).bind fun answer answer' hanswer => ?_
  cases hanswer with
  | ok _ => exact .pure rfl
  | error =>
    have hdrop := (InStep.call (hR.dropChunks store ids)).attempt (unstoppable_call _)
    exact hdrop.discard.bind fun _ _ _ => .throw _

theorem inStep_writeFile [RecordStore σ] (hR : Lockstep R) (store : String) (file : SourceFile)
    (records : List ChunkRecord) :
    InStep R Eq (writeFile store file records) (writeFile store file records) := by
  unfold writeFile
  refine (inStep_writing hR store _ (hR.putChunks store records)).bind fun _ _ _ => ?_
  refine InStep.get.bind fun st st' _ => ?_
  refine (inStep_writing hR store _ (hR.putDocument store ?_)).bind fun _ _ _ => .pure rfl
  exact file.sameVersion_document st.now st'.now

theorem inStep_replaceFile [RecordStore σ] (hR : Lockstep R) (store : String) (file : SourceFile)
    {existing existing' : Option DocumentRecord}
    (hexisting : Option.Rel DocumentRecord.SameVersion existing existing')
    (records : List ChunkRecord) :
    InStep R Eq (replaceFile store file existing records)
      (replaceFile store file existing' records) := by
  have hwrite := inStep_writeFile hR store file records
  cases hexisting with
  | none => exact hwrite
  | some _ =>
    exact (InStep.call (hR.dropDocuments store [file.path])).discard.bind fun _ _ _ => hwrite

namespace CalmedBy

variable {indexer calm : Indexer} (h : indexer.CalmedBy calm)

include h

theorem cut (text : List Char) (language : Language) :
    InStep R Eq (indexer.cut text language : Indexing σ (List Chunk)) (calm.cut text language) := by
  intro st st' hst
  have hchunks := h.chunker.chunks text language st.token indexer.options.window
  simp only [Indexer.cut, outcome_bind, outcome_get, outcome_set, hst.token, h.options]
  generalize indexer.chunker.chunks text language indexer.options.window st.token = made,
    calm.chunker.chunks text language indexer.options.window .never = made' at hchunks
  cases hchunks with
  | cancelled => exact .inl rfl
  | @same answer token =>
    cases answer with
    | ok chunks => exact .inr ⟨.ok rfl, hst.store, hst.embedCalls, rfl⟩
    | error e => exact .inr ⟨.error, hst.store, hst.embedCalls, rfl⟩

theorem records (documentId path : String) (text : List Char) (language : Language) :
    InStep R Eq
      (indexer.records documentId path text language : Indexing σ (List ChunkRecord))
      (calm.records documentId path text language) := by
  unfold Indexer.records
  refine (h.cut text language).bind ?_
  rintro chunks _ rfl
  have hembedder := h.embedder
  generalize indexer.embedder = embedder, calm.embedder = embedder' at hembedder
  cases hembedder with
  | none => exact .pure rfl
  | some hembedder => exact inStep_withVectors hembedder path chunks _

/-- Indexing a file keeps two runs in step. -/
theorem indexFile [RecordStore σ] (hR : Lockstep R) (store : String) (force : Bool)
    (file : SourceFile) :
    InStep R Eq (indexer.indexFile store force file) (calm.indexFile store force file) := by
  rw [indexFile_eq, indexFile_eq, h.options]
  refine (InStep.ofExcept _).bind fun _ _ _ => ?_
  refine (InStep.call (hR.findDocument store file.path)).bind fun existing existing' hexisting => ?_
  -- Both runs find the same version or none, whenever it was written.
  have hfound : Option.Rel DocumentRecord.SameVersion
      (existing.filter fun document => !force && document.documentId == file.versionId)
      (existing'.filter fun document => !force && document.documentId == file.versionId) := by
    cases hexisting with
    | none => exact .none
    | some hsame =>
      simp only [Option.filter, hsame.documentId]
      split
      · exact .some hsame
      · exact .none
  generalize existing.filter _ = found, existing'.filter _ = found' at hfound
  cases hfound with
  | some hsame =>
    refine .pure ?_
    rw [hsame.chunkIds]
  | none =>
    refine (h.records _ _ _ _).bind ?_
    rintro records _ rfl
    refine InStep.checkpoint.bind fun _ _ _ => ?_
    exact inStep_replaceFile hR store file hexisting records

end CalmedBy

end Indexer

end CodeIndex
