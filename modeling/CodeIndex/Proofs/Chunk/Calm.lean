import CodeIndex.Chunk.Structural
import CodeIndex.Embedding.Hashing
import CodeIndex.Grammar.Parser

/-!
# Cutting without being told to stop

A parser, a chunker and an embedder can look at the cancellation token and can fire it.  One that is
calmed does neither: it answers as the original does, unless that was told to stop, and leaves a
token alone that never fires.  So the token decides whether there is an answer and not which one.

## Main definitions

* `UnlessCancelled` compares the answer for some token with the one for a token that never fires.
* `TreeParser.CalmedBy`, `Chunker.CalmedBy` and `Embedder.CalmedBy` compare a part of the indexer
  with the one that takes its place if nothing is cancelled.

## Main results

* `Chunker.CalmedBy.chunks`: a text is cut alike whatever the token, or not at all.
* `Grammar.calmedBy_self` and `Embedding.calmedBy_hashing`: the parts that a configuration puts
  together are calm already.
-/

namespace CodeIndex

/-- An answer is that the call was told to stop, or the calm one is the same and comes with a token
that never fires. -/
inductive UnlessCancelled {α : Type} :
    (answer calm : Except ParseError α × Cancellation) → Prop
  | cancelled {token : Cancellation} {calm : Except ParseError α × Cancellation} :
      UnlessCancelled (.error .cancelled, token) calm
  | same {answer : Except ParseError α} {token : Cancellation} :
      UnlessCancelled (answer, token) (answer, .never)

/-- The calm parser answers as the other one does where that is not told to stop. -/
structure TreeParser.CalmedBy (parser calm : TreeParser) : Prop where
  supports : calm.supports = parser.supports
  parse (source : List Char) (language : Language) (token : Cancellation) :
    UnlessCancelled (parser.parse source language token) (calm.parse source language .never)

/-- The calm chunker cuts at the same nodes. -/
structure Chunker.CalmedBy (chunker calm : Chunker) : Prop where
  parser : chunker.parser.CalmedBy calm.parser
  kinds : calm.kinds = chunker.kinds

/-- The calm embedder has the same vectors for the same texts. -/
structure Embedder.CalmedBy (embedder calm : Embedder) : Prop where
  name : calm.name = embedder.name
  embed (earlierCalls : Nat) (texts : List String) (token : Cancellation) :
    calm.embed earlierCalls texts .never =
      ((embedder.embed earlierCalls texts token).1, .never)

/-! ## Parsers -/

theorem TreeParser.calmedBy_wholeFile : wholeFile.CalmedBy wholeFile where
  supports := rfl
  parse source language token := by
    simp only [wholeFile, Cancellation.poll_never]
    split
    · exact .cancelled
    · exact .same

namespace Grammar

/-- A stack of nodes is finished in one way if it is finished at all. -/
theorem unlessCancelled_finishAll (token : Cancellation) (stack : List Unfinished) :
    UnlessCancelled (Node.finishAll token stack) (Node.finishAll .never stack) := by
  fun_induction Node.finishAll token stack with
  | case1 =>
    rw [Node.finishAll.eq_def]
    exact .same
  | case2 => exact .cancelled
  | case3 token node done token₁ hpoll child waiting outer ih =>
    rw [Node.finishAll.eq_def .never, Cancellation.poll_never]
    exact ih
  | case4 =>
    rw [Node.finishAll.eq_def .never, Cancellation.poll_never]
    exact .same
  | case5 token node done token₁ hpoll parent siblings earlier outer ih =>
    rw [Node.finishAll.eq_def .never, Cancellation.poll_never]
    exact ih

theorem calmedBy_parserOf (read : Language → List Char → Option Node) :
    (parserOf read).CalmedBy (parserOf read) where
  supports := rfl
  parse source language token := by
    simp only [parserOf, Cancellation.poll_never]
    split
    · exact .cancelled
    · next token₁ _ =>
      cases read language source with
      | none => exact .same
      | some node => exact unlessCancelled_finishAll token₁ [.start node]

theorem calmedBy_self : parser.CalmedBy parser := calmedBy_parserOf nodeOf?

end Grammar

/-! ## Chunkers -/

namespace Chunker

variable {chunker calm : Chunker}

/-- The walk over a tree finds the same spans, or it is stopped. -/
theorem unlessCancelled_spansFrom (kinds : KindRegistry) (language : Language) (found : List Span)
    (waiting : List Tree) (token : Cancellation) :
    UnlessCancelled (spansFrom kinds language found waiting token)
      (spansFrom kinds language found waiting .never) := by
  fun_induction spansFrom kinds language found waiting token with
  | case1 =>
    rw [spansFrom.eq_def]
    exact .same
  | case2 => exact .cancelled
  | case3 found token tree waiting token₁ hpoll hselects ih =>
    rw [spansFrom.eq_def _ _ _ _ .never, Cancellation.poll_never]
    simp only [if_pos hselects]
    exact ih
  | case4 found token tree waiting token₁ hpoll hselects ih =>
    rw [spansFrom.eq_def _ _ _ _ .never, Cancellation.poll_never]
    simp only [if_neg hselects]
    exact ih

namespace CalmedBy

variable (h : chunker.CalmedBy calm) (source : List Char) (language : Language)
  (token : Cancellation)

include h

theorem treeOf : UnlessCancelled (chunker.treeOf source language token)
    (calm.treeOf source language .never) := by
  unfold Chunker.treeOf
  rw [h.parser.supports]
  split
  · exact h.parser.parse source language token
  · exact TreeParser.calmedBy_wholeFile.parse source language token

theorem structural : UnlessCancelled (chunker.structural source language token)
    (calm.structural source language .never) := by
  have htree := h.treeOf source language token
  unfold Chunker.structural
  rw [h.kinds]
  generalize chunker.treeOf source language token = parsed,
    calm.treeOf source language .never = parsed' at htree
  cases htree with
  | cancelled => exact .cancelled
  | @same answer token₁ =>
    cases answer with
    | error e => exact .same
    | ok tree =>
      have hspans := unlessCancelled_spansFrom chunker.kinds language [] [tree] token₁
      dsimp only
      generalize spansFrom chunker.kinds language [] [tree] token₁ = walked,
        spansFrom chunker.kinds language [] [tree] .never = walked' at hspans
      cases hspans with
      | cancelled => exact .cancelled
      | @same answer _ => cases answer <;> exact .same

theorem chunks (size : WindowSize) : UnlessCancelled (chunker.chunks source language size token)
    (calm.chunks source language size .never) := by
  have hstructural := h.structural source language token
  unfold Chunker.chunks
  generalize chunker.structural source language token = found,
    calm.structural source language .never = found' at hstructural
  cases hstructural with
  | cancelled => exact .cancelled
  | @same answer token₁ =>
    match answer with
    | .error e => exact .same
    | .ok (_ :: _) => exact .same
    | .ok [] =>
      simp only [Cancellation.poll_never]
      split
      · exact .cancelled
      · exact .same

end CalmedBy

end Chunker

/-! ## Embedders -/

theorem Embedding.calmedBy_hashing (dimension : Nat) :
    (hashing dimension).CalmedBy (hashing dimension) :=
  ⟨rfl, fun _ _ _ => rfl⟩

/-- The behaviour without the firing. -/
def Embedder.Behaviour.calmed : Behaviour → Behaviour
  | .cancel => .constant
  | behaviour => behaviour

theorem Embedder.calmedBy_scripted (script : Script) :
    (scripted script).CalmedBy (scripted { script with behaviour := script.behaviour.calmed }) where
  name := rfl
  embed earlierCalls texts token := by
    by_cases hafter : script.after ≤ earlierCalls
    · simp only [scripted, if_pos hafter]
      cases script.behaviour <;> rfl
    · simp only [scripted, if_neg hafter]

end CodeIndex
