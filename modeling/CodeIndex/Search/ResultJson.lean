import CodeIndex.Search.Hybrid
import CodeIndex.Store.RecordJson

/-!
# Search results as JSON

How hits, fused results, results with their chunks, and the settings of a fusion are written, and
how all but results with chunks are read.  Settings may be given in part.
-/

namespace CodeIndex

open Json (Value Fields)

namespace Hit

/-- The fields of the record in order. -/
def fieldNames : List String := ["chunk_id", "score"]

/-- Write a hit. -/
def toJson (h : Hit) : Value :=
  .ofFields [("chunk_id", .ofString h.chunkId), ("score", .ofFloat32 h.score)]

/-- Read a hit. -/
def ofJson? (value : Value) : Option Hit := do
  let fields ← Fields.ofValue? fieldNames value
  let chunkId ← fields.required "chunk_id" Value.string?
  let score ← fields.required "score" Value.float32?
  return { chunkId, score }

end Hit

namespace Fused

/-- The fields of the record in order. -/
def fieldNames : List String := ["chunk_id", "ranks", "scores", "fused_score"]

/-- The fields of a result with their values. -/
def fields (r : Fused Float) : List (String × Value) :=
  [("chunk_id", .ofString r.chunkId), ("ranks", .array (r.ranks.map Value.ofNat)),
    ("scores", .array (r.scores.map Value.ofFloat32)), ("fused_score", .ofFloat r.total)]

/-- Write a result. -/
def toJson (r : Fused Float) : Value := .ofFields r.fields

/-- Read a result. -/
def ofJson? (value : Value) : Option (Fused Float) := do
  let fields ← Fields.ofValue? fieldNames value
  let chunkId ← fields.required "chunk_id" Value.string?
  let ranks ← fields.required "ranks" (Value.list? Value.natural?)
  let scores ← fields.required "scores" (Value.list? Value.float32?)
  let total ← fields.required "fused_score" Value.float?
  return { chunkId, ranks, scores, total }

end Fused

namespace Found

/-- Write a result with its chunk. -/
def toJson (found : Found) : Value :=
  .ofFields (found.result.fields ++
    [("chunk", match found.chunk with
      | none => .null
      | some chunk => chunk.toJson)])

end Found

namespace RankFusion

/-- The fields of the record in order. -/
def fieldNames : List String := ["k", "sparse_weight", "dense_weight"]

/-- The greatest rank constant: it fits 32 bits. -/
def maxRankConstant : Nat := 0xFFFFFFFF

/-- Write settings. -/
def toJson (s : RankFusion) : Value :=
  .ofFields [("k", .ofNat s.k), ("sparse_weight", .ofFloat s.sparseWeight),
    ("dense_weight", .ofFloat s.denseWeight)]

/-- Read a rank constant. -/
def rankConstant? (value : Value) : Option Nat :=
  value.natural?.filter (· ≤ maxRankConstant)

/-- Read settings. -/
def ofJson? (value : Value) : Option RankFusion := do
  let fields ← Fields.ofValue? fieldNames value
  let standard : RankFusion := {}
  let k ← fields.withDefault "k" standard.k rankConstant?
  let sparseWeight ← fields.withDefault "sparse_weight" standard.sparseWeight Value.float?
  let denseWeight ← fields.withDefault "dense_weight" standard.denseWeight Value.float?
  return { k, sparseWeight, denseWeight }

end RankFusion

end CodeIndex
