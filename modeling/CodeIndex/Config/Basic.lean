import CodeIndex.Chunk.Structural
import CodeIndex.Embedding.Hashing
import CodeIndex.Index.Indexer
import CodeIndex.Number.Decimal
import CodeIndex.Search.RankFusion
import CodeIndex.Text.WordCharacter

/-!
# The configuration

The settings of the program: which backend keeps the index and where, how files are cut, and how
search results are fused.  Every setting has a default.

## Main definitions

* `Config` with its three parts `StoreConfig`, `IndexConfig` and `SearchConfig`.
* `Weight` is a number by its bits, so that it is kept exactly as it was written.
* `Config.validate` refuses settings that the index or the search cannot run with.
-/

namespace CodeIndex

/-- The kinds of backends. -/
inductive BackendKind where
  | relational | memory | vector
deriving DecidableEq, Repr

namespace BackendKind

/-- The name of a kind. -/
def name : BackendKind → String
  | relational => "sqlite"
  | memory => "memory"
  | vector => "qdrant"

/-- The kind of a name. -/
def ofName? : String → Option BackendKind
  | "sqlite" => some relational
  | "memory" => some memory
  | "qdrant" => some vector
  | _ => none

end BackendKind

/-- A floating point number by its bits. -/
structure Weight where
  bits : UInt64
deriving DecidableEq, Repr

namespace Weight

/-- The number itself. -/
def toFloat (weight : Weight) : Float := Float.ofBits weight.bits

/-- The bits of the sign. -/
def signMask : UInt64 := 0x8000000000000000

/-- The bits of infinity. -/
def infinityBits : UInt64 := 0x7FF0000000000000

/-- Whether the number is finite and not less than zero. -/
def isUsable (weight : Weight) : Bool :=
  weight.bits < infinityBits || weight.bits == signMask

/-- The number as a decimal without exponent. -/
def text (weight : Weight) : String :=
  Number.Layout.positional.text .binary64 weight.bits.toNat

end Weight

/-- Where the index is kept. -/
structure StoreConfig where
  backend : BackendKind := .relational
  databasePath : String := ".sift/index.db"
  serviceAddress : String := "http://localhost:6334"
  /-- The store that is meant when none is named. -/
  defaultStore : String := "default"
deriving DecidableEq, Repr

/-- How files are cut. -/
structure IndexConfig where
  maxLines : Nat := 60
  windowOverlap : Nat := 0
  maxFileSize : Nat := 10485760
  maxPathLength : Nat := 1024
  /-- Kinds of nodes by the identifiers of languages. -/
  chunkableKinds : List (String × List String) := []
  embeddingDim : Nat := Embedding.defaultDimension
deriving DecidableEq, Repr

/-- How results are fused. -/
structure SearchConfig where
  rankConstant : Nat := defaultRankConstant
  weights : List (String × Weight) := []
  limit : Nat := 10
  topK : Nat := 50
deriving DecidableEq, Repr

/-- The settings of the program. -/
structure Config where
  store : StoreConfig := {}
  index : IndexConfig := {}
  search : SearchConfig := {}
deriving DecidableEq, Repr

namespace Config

/-- The first weight that cannot be used. -/
def unusableWeight? (config : Config) : Option (String × Weight) :=
  config.search.weights.find? fun entry => !entry.2.isUsable

/-- The first setting, in words, that the program cannot run with. -/
def problem? (config : Config) : Option String :=
  let index := config.index
  if (Text.trim config.store.defaultStore.toList).isEmpty then
    some "store.default_store must not be empty"
  else if index.maxLines = 0 then some "index.max_lines must be at least 1"
  else if index.maxLines ≤ index.windowOverlap then
    some (s!"index.window_overlap ({index.windowOverlap}) must be smaller than " ++
      s!"index.max_lines ({index.maxLines})")
  else if index.embeddingDim = 0 then some "index.embedding_dim must be at least 1"
  else if config.search.rankConstant = 0 then some "search.rrf_k must be at least 1"
  else config.unusableWeight?.map fun (name, weight) =>
    "search.weights." ++ name ++ " must be a non-negative number, got " ++ weight.text

/-- Accept settings that the index and the search can run with. -/
def validate (config : Config) : Except String Unit :=
  match config.problem? with
  | none => .ok ()
  | some problem => .error problem

/-- The limits on files. -/
def indexSettings (config : Config) : IndexSettings where
  window := ⟨config.index.maxLines, config.index.windowOverlap⟩
  maxFileSize := config.index.maxFileSize
  maxPathLength := config.index.maxPathLength

/-- The kinds of nodes that become chunks: the standard ones, and for the languages that are named
their own.  Unknown languages are passed over. -/
def kinds (config : Config) : KindRegistry :=
  config.index.chunkableKinds.foldl (fun registry (id, kinds) =>
    match Language.ofId? id with
    | some language => registry.set language kinds
    | none => registry) .standard

end Config

end CodeIndex
