/-!
# Reciprocal rank fusion

Several retrievers each answer a query with a ranked list of hits.  Fusion turns the lists into
one: a chunk scores `w / (k + r)` for every list that holds it, where `w` is the weight of the list
and `r` the rank of the chunk in it, and the chunks are ordered by the sum of these terms.  The raw
scores of the hits are kept beside the ranks but never compared across lists.

## Main definitions

* `Hit` is an entry of a list and `Fused` an entry of the result.
* `FusionArithmetic` is what fusion needs of the numbers that it sums; binary floating point is
  one instance.
* `usedWeights` settles the weight of each list: a missing weight is an equal share, an
  unusable one counts as zero.
* `accumulate` collects the ranks and the sums, one entry per chunk, and `fuse` sorts them by the
  sum, ties by the identifier.
-/

namespace CodeIndex

/-- A chunk that a retriever found, with the retriever's own score. -/
structure Hit where
  chunkId : String
  score : Float32

/-- A chunk of a fused list: its rank in each list, zero where it is absent, its raw score in each
list, and the sum that orders the fused list. -/
structure Fused (α : Type) where
  chunkId : String
  ranks : List Nat
  scores : List Float32
  total : α

namespace Fused

variable {α : Type}

/-- The rank in a list, zero if the list does not hold the chunk. -/
def rank (result : Fused α) (source : Nat) : Nat := result.ranks.getD source 0

/-- The raw score in a list. -/
def scoreAt (result : Fused α) (source : Nat) : Float32 := result.scores.getD source 0

/-- Number of lists that hold the chunk. -/
def sourcesHit (result : Fused α) : Nat := (result.ranks.filter (0 < ·)).length

end Fused

/-- The numbers that fusion sums up. -/
class FusionArithmetic (α : Type) where
  zero : α
  add : α → α → α
  div : α → α → α
  ofNat : Nat → α
  /-- Whether a number can be used as a weight. -/
  isWeight : α → Bool
  /-- A number of the total order that sorts results. -/
  key : α → Int

/-- The place of a floating point number in the total order of all of them, in which the negative
zero precedes the positive one and the two kinds of NaN stand at the ends. -/
def totalOrderKey (x : Float) : Int :=
  let bits := x.toBits.toNat
  if bits < 0x8000000000000000 then bits else 0x7FFFFFFFFFFFFFFF - (bits : Int)

instance : FusionArithmetic Float where
  zero := 0.0
  add := (· + ·)
  div := (· / ·)
  ofNat := Float.ofNat
  isWeight w := w.isFinite && 0.0 ≤ w
  key := totalOrderKey

/-- The value of `k` that replaces zero, and the default. -/
def defaultRankConstant : Nat := 60

section

variable {α : Type} [FusionArithmetic α]

open FusionArithmetic

/-- The weight of list number `source` among `sources` lists. -/
def usedWeight (weights : List α) (sources source : Nat) : α :=
  match weights[source]? with
  | none => div (ofNat 1) (ofNat sources)
  | some w => if isWeight w then w else zero

/-- The weight of each of `sources` lists. -/
def usedWeights (weights : List α) (sources : Nat) : List α :=
  (List.range sources).map (usedWeight weights sources)

/-- What a list of the given weight contributes to a chunk that it ranks. -/
def contribution (k : Nat) (weight : α) (rank : Nat) : α :=
  div weight (add (ofNat k) (ofNat rank))

/-- The entry of a chunk that no list has contributed to. -/
def Fused.blank (sources : Nat) (chunkId : String) : Fused α :=
  ⟨chunkId, List.replicate sources 0, List.replicate sources 0, zero⟩

/-- Enter a hit at the given rank of a list, unless the list has ranked the chunk before. -/
def Fused.enter (k source : Nat) (weight : α) (rank : Nat) (score : Float32) (entry : Fused α) :
    Fused α :=
  if entry.rank source ≠ 0 then entry
  else
    { entry with
      ranks := entry.ranks.set source rank
      scores := entry.scores.set source score
      total := add entry.total (contribution k weight rank) }

/-- Enter a hit into the entries, adding an entry for a new chunk. -/
def enterHit (sources k source : Nat) (weight : α) (entries : List (Fused α)) (hit : Hit)
    (rank : Nat) : List (Fused α) :=
  let enter := Fused.enter k source weight rank hit.score
  if entries.any (·.chunkId == hit.chunkId) then
    entries.map fun entry => if entry.chunkId == hit.chunkId then enter entry else entry
  else entries ++ [enter (.blank sources hit.chunkId)]

/-- Enter the hits of one list, the first of which has the given rank. -/
def enterList (sources k source : Nat) (weight : α) (entries : List (Fused α)) (rank : Nat) :
    List Hit → List (Fused α)
  | [] => entries
  | hit :: rest =>
    enterList sources k source weight (enterHit sources k source weight entries hit rank)
      (rank + 1) rest

/-- Enter all lists, the first of which has number `source`. -/
def accumulate (sources k : Nat) (weights : List α) (entries : List (Fused α)) (source : Nat) :
    List (List Hit) → List (Fused α)
  | [] => entries
  | hits :: rest =>
    accumulate sources k weights
      (enterList sources k source (usedWeight weights sources source) entries 1 hits)
      (source + 1) rest

/-- Whether one result may stand before another: its sum is greater, or the sums are equal and its
identifier is not greater. -/
def Fused.precedes (a b : Fused α) : Bool :=
  key b.total < key a.total || (key a.total == key b.total && decide (a.chunkId ≤ b.chunkId))

/-- The rank constant in use. -/
def rankConstant (k : Nat) : Nat := if k = 0 then defaultRankConstant else k

/-- Fuse ranked lists into one. -/
def fuse (lists : List (List Hit)) (weights : List α) (k : Nat) : List (Fused α) :=
  (accumulate lists.length (rankConstant k) weights [] 0 lists).mergeSort Fused.precedes

end

/-- The settings of a fusion of one sparse and one dense list. -/
structure RankFusion where
  k : Nat := defaultRankConstant
  sparseWeight : Float := 0.5
  denseWeight : Float := 0.5

namespace RankFusion

/-- Whether both weights are within a twentieth of a half. -/
def isEven (settings : RankFusion) : Bool :=
  (settings.sparseWeight - 0.5).abs ≤ 0.05 && (settings.denseWeight - 0.5).abs ≤ 0.05

/-- Fuse one sparse and one dense list. -/
def fuse (settings : RankFusion) (sparse dense : List Hit) : List (Fused Float) :=
  CodeIndex.fuse [sparse, dense] [settings.sparseWeight, settings.denseWeight] settings.k

end RankFusion

end CodeIndex
