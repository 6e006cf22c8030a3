import CodeIndex.Cancellation

/-!
# Embedders

An embedder turns texts into vectors, one for each text and in the same order.  It counts its
calls, and it may look at or fire the cancellation token.  `Embedder.scripted` answers with constant
vectors until a given call, from which on it misbehaves in a chosen way; it serves to find out what
an index does with a broken model.
-/

namespace CodeIndex

/-- A point of the embedding space. -/
abbrev Vector32 := List Float32

/-- Why a text could not be embedded. -/
structure EmbedError where
  reason : String
deriving DecidableEq, Repr

/-- A way to turn texts into vectors. -/
structure Embedder where
  name : String
  /-- The vectors of some texts; the number says how many calls came before. -/
  embed : (earlierCalls : Nat) → List String → Cancellation →
    Except EmbedError (List Vector32) × Cancellation

namespace Embedder

/-- What a scripted embedder does from some call on. -/
inductive Behaviour where
  /-- One vector for each text. -/
  | constant
  /-- The last vector is missing. -/
  | short
  /-- There is one vector too many. -/
  | long
  /-- The call fails. -/
  | fail
  /-- The call fires the token and answers. -/
  | cancel
deriving DecidableEq, Repr

/-- An embedder whose vectors are all alike. -/
structure Script where
  dimension : Nat := 4
  behaviour : Behaviour := .constant
  /-- The first call that the behaviour applies to. -/
  after : Nat := 0

/-- The embedder that follows a script. -/
def scripted (script : Script) : Embedder where
  name := "mock"
  embed earlierCalls texts token :=
    let answer (count : Nat) :=
      List.replicate count (List.replicate script.dimension (0.5 : Float32))
    match if script.after ≤ earlierCalls then script.behaviour else .constant with
    | .constant => (.ok (answer texts.length), token)
    | .short => (.ok (answer (texts.length - 1)), token)
    | .long => (.ok (answer (texts.length + 1)), token)
    | .fail => (.error ⟨"model offline"⟩, token)
    | .cancel => (.ok (answer texts.length), .fired)

end Embedder

end CodeIndex
