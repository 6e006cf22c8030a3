/-!
# Cancellation

A long call asks a token from time to time whether it should stop.  What such a token can do to
the call is fixed by the number of questions that it still answers with no: `Cancellation` is that
number, or nothing for a token that never fires.  A token that has fired stays fired.
-/

namespace CodeIndex

/-- How many more polls a token answers with no; `none` for a token that never fires. -/
structure Cancellation where
  remaining : Option Nat := none
deriving DecidableEq, Repr

namespace Cancellation

/-- A token that never fires. -/
def never : Cancellation := {}

/-- A token that has fired. -/
def fired : Cancellation := ⟨some 0⟩

/-- Ask whether to stop. -/
def poll (token : Cancellation) : Bool × Cancellation :=
  match token.remaining with
  | none => (false, token)
  | some 0 => (true, token)
  | some (n + 1) => (false, ⟨some n⟩)

/-- A token that never fires is unchanged by a poll. -/
theorem poll_never : never.poll = (false, never) := rfl

end Cancellation

end CodeIndex
