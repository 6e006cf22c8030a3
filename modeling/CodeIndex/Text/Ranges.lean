/-!
# Character sets as code point ranges

A character property is a list of inclusive code point ranges in increasing order, and a case
mapping is a list of ranges that move by a constant distance.  Both are plain lists of numbers, so
that a property of a concrete character is settled by evaluation.

## Main definitions

`Ranges` and `Ranges.contains` say which code points a property holds of.  `Shifts` and
`Shifts.apply` move every second or every code point of a range by a fixed distance, and leave
all others alone.
-/

namespace CodeIndex.Text

/-- Inclusive ranges of code points, in increasing order. -/
abbrev Ranges := List (Nat × Nat)

/-- Whether some range holds the code point. -/
def Ranges.contains (ranges : Ranges) (code : Nat) : Bool :=
  ranges.any fun range => range.1 ≤ code && code ≤ range.2

/-- A mapping of code points: `(first, last, stride, distance)` moves every `stride`-th code point
from `first` to `last` by `distance`. -/
abbrev Shifts := List (Nat × Nat × Nat × Int)

/-- Move a code point by the first shift whose range holds it. -/
def Shifts.apply (shifts : Shifts) (code : Nat) : Nat :=
  match shifts.find? fun (first, last, stride, _) =>
      first ≤ code && code ≤ last && (code - first) % stride == 0 with
  | some (_, _, _, distance) => (Int.ofNat code + distance).toNat
  | none => code

end CodeIndex.Text
