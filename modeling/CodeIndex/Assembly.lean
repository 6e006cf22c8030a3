import CodeIndex.Config.Reading
import CodeIndex.Files.Tree
import CodeIndex.Grammar.Parser
import CodeIndex.Search.Hybrid
import CodeIndex.Store.Backend
import CodeIndex.Store.ServiceAddress
import CodeIndex.Store.Snapshot

/-!
# From the configuration to the parts

What the settings amount to: the backend with its database file, the indexer that brings files into
it, and the searcher over the retrievers that it has.

## Main definitions

* `Config.openBackend` opens the backend, and `Config.saveBackend` writes its database back.
* `Config.embedder`, `Config.indexer` and `Config.searcher` make the other parts.
-/

namespace CodeIndex

namespace StoreConfig

/-- The path of a database that is kept in no file. -/
def memoryPath : String := ":memory:"

/-- The file of the database, if it is kept in one. -/
def databaseFile? (config : StoreConfig) : Option (List Char) :=
  if config.databasePath = memoryPath ∨ config.databasePath.isEmpty then none
  else some config.databasePath.toList

/-- Open the database, making its file and the directories above it if they are missing. -/
def openDatabase (config : StoreConfig) (tree : FileTree) :
    Except String (Database × FileTree) := do
  let some path := config.databaseFile? | return ({}, tree)
  let directory := (Path.parent? path).getD []
  let tree ←
    if directory.isEmpty then pure tree
    else (tree.makeDirectories directory).mapError fun _ =>
      "failed to create " ++ String.ofList directory
  let refused := "failed to open sqlite database at " ++ config.databasePath
  match tree.read path with
  | .ok content =>
    match Database.ofOctets? content with
    | some db => return (db, tree)
    | none => throw refused
  | .error _ => return ({}, ← (tree.write path []).mapError fun _ => refused)

/-- Open the backend that the settings choose. -/
def openBackend (config : StoreConfig) (tree : FileTree) : Except String (Backend × FileTree) :=
  match config.backend with
  | .memory => return (.memory {}, tree)
  | .relational => do
    let (db, tree) ← config.openDatabase tree
    return (.relational db, tree)
  | .vector => do
    let (db, tree) ← config.openDatabase tree
    if ServiceAddress.isAddress config.serviceAddress.toList then return (.vector ⟨db⟩, tree)
    else throw "failed to build qdrant client"

/-- Write the database of a backend to its file. -/
def saveBackend (config : StoreConfig) (backend : Backend) (tree : FileTree) : FileTree :=
  match backend.database?, config.databaseFile? with
  | some db, some path =>
    match tree.write path db.toOctets with
    | .ok tree => tree
    | .error _ => tree
  | _, _ => tree

end StoreConfig

namespace Backend

/-- A backend that holds nothing and keeps nothing in files. -/
def fresh : BackendKind → Backend
  | .memory => .memory {}
  | .relational => .relational {}
  | .vector => .vector {}

end Backend

namespace Config

/-- The embedder that the backend needs, if it needs one. -/
def embedder (config : Config) : Option Embedder :=
  match config.store.backend with
  | .vector => some (Embedding.hashing config.index.embeddingDim)
  | .relational => none
  | .memory => none

/-- The indexer that brings files into the backend. -/
def indexer (config : Config) (embedder : Option Embedder) : Indexer where
  chunker := ⟨Grammar.parser, config.kinds⟩
  embedder
  options := config.indexSettings

/-- The retrievers of a backend. -/
def retrievers (backend : Backend) (embedder : Option Embedder) : List Retriever :=
  (backend.database?.map Retriever.lexical).toList ++
    match backend, embedder with
    | .vector service, some embedder => [.dense service embedder]
    | _, _ => []

/-- The searcher over the retrievers of a backend, if it has any. -/
def searcher (config : Config) (backend : Backend) (embedder : Option Embedder) :
    Except String Searcher :=
  match retrievers backend embedder with
  | [] => .error (config.store.backend.name ++ " backend has no search support")
  | retrievers => .ok {
      retrievers
      weights := config.search.weights.map fun (name, weight) => (name, weight.toFloat)
      k := config.search.rankConstant
      topK := config.search.topK }

end Config

end CodeIndex
