import Std.Data.TreeMap
import CodeIndex.Embedding.Basic
import CodeIndex.Store.Vector

/-!
# Hybrid search

A `Retriever` answers a query with a ranked list of chunks.  A `Searcher` asks several of them and
fuses their lists; a retriever that fails counts as one that found nothing, unless all fail.

## Main definitions

* `Retriever.lexical` searches the words of the query in a database, and `Retriever.dense` searches
  the vector of the query in the vector service.
* `Searcher.search` is the fused list, and `Searcher.searchRecords` the same list with the chunks
  that the store has for it.
-/

namespace CodeIndex

/-- Why a search failed. -/
inductive SearchError where
  | store (error : StoreError)
  | embedding (reason : String)
  /-- Every retriever failed; the text names each with its error. -/
  | allFailed (reasons : String)
  | noRetrievers
deriving DecidableEq, Repr

namespace SearchError

/-- The text of an error. -/
def message : SearchError → String
  | store error => "store error: " ++ error.message
  | embedding reason => "embedding failed: " ++ reason
  | allFailed reasons => "all retrievers failed: " ++ reasons
  | noRetrievers => "no retrievers configured"

end SearchError

/-- A source of ranked chunks: given a store, a query and how many chunks are wanted, the best ones
in order. -/
structure Retriever where
  name : String
  search : (store query : String) → (topK : Nat) → Except SearchError (List Hit)

namespace Retriever

/-- The retriever that finds the words of the query. -/
def lexical (db : Database) : Retriever where
  name := "lexical"
  search store query topK := (db.matching store query topK).mapError .store

/-- The retriever that finds the neighbours of the query's vector. -/
def dense (service : VectorStore) (embedder : Embedder) : Retriever where
  name := "dense"
  search store query topK :=
    match (embedder.embed 0 [query] .never).1 with
    | .error e => .error (.embedding e.reason)
    | .ok [] => .error (.embedding "no vector for query")
    | .ok (_ :: _) => (service.nearest store topK).mapError .store

end Retriever

/-- Several retrievers with the settings of their fusion. -/
structure Searcher where
  retrievers : List Retriever := []
  /-- Weights by the names of retrievers; the others share equally. -/
  weights : List (String × Float) := []
  k : Nat := defaultRankConstant
  /-- How many chunks each retriever is asked for at least. -/
  topK : Nat := 50

/-- A result and its chunk, unless the store has none. -/
structure Found where
  result : Fused Float
  chunk : Option ChunkRecord

namespace Searcher

/-- The weight of a retriever. -/
def weightOf (searcher : Searcher) (name : String) : Float :=
  match searcher.weights.lookup name with
  | some weight => weight
  | none => 1.0 / Float.ofNat (max searcher.retrievers.length 1)

/-- The weights in the order of the retrievers. -/
def weightList (searcher : Searcher) : List Float :=
  searcher.retrievers.map fun retriever => searcher.weightOf retriever.name

/-- What each retriever answers. -/
def outcomes (searcher : Searcher) (store query : String) (limit : Nat) :
    List (String × Except SearchError (List Hit)) :=
  searcher.retrievers.map fun retriever =>
    (retriever.name, retriever.search store query (max searcher.topK limit))

/-- The list of an outcome, empty for a failure. -/
def hitsOf : Except SearchError (List Hit) → List Hit
  | .ok hits => hits
  | .error _ => []

/-- The errors among some outcomes, each with the name of its retriever. -/
def failures (outcomes : List (String × Except SearchError (List Hit))) : List String :=
  outcomes.filterMap fun (name, outcome) =>
    match outcome with
    | .ok _ => none
    | .error e => some (name ++ ": " ++ e.message)

/-- The fused results for a query, at most `limit`. -/
def search (searcher : Searcher) (store query : String) (limit : Nat) :
    Except SearchError (List (Fused Float)) :=
  if searcher.retrievers.isEmpty then .error .noRetrievers
  else
    let outcomes := searcher.outcomes store query limit
    let errors := failures outcomes
    if errors.length = outcomes.length then .error (.allFailed ("; ".intercalate errors))
    else
      .ok ((fuse (outcomes.map fun outcome => hitsOf outcome.2) searcher.weightList
        searcher.k).take limit)

/-- Chunks by their identifiers; of several with the same one the last counts. -/
def chunkTable (chunks : List ChunkRecord) : Std.TreeMap String ChunkRecord :=
  chunks.foldl (fun table chunk => table.insert chunk.chunkId chunk) ∅

/-- Join each result with the chunk of its identifier, which is taken out of the table. -/
def takeChunks (table : Std.TreeMap String ChunkRecord) : List (Fused Float) → List Found
  | [] => []
  | result :: rest =>
    ⟨result, table[result.chunkId]?⟩ :: takeChunks (table.erase result.chunkId) rest

/-- Join each result with the fetched chunk of its identifier. -/
def withChunks (results : List (Fused Float)) (chunks : List ChunkRecord) : List Found :=
  takeChunks (chunkTable chunks) results

/-- The fused results for a query with the chunks that a store has for them. -/
def searchRecords {σ : Type} [RecordStore σ] (searcher : Searcher) (store query : String)
    (limit : Nat) (documents : σ) : Except SearchError (List Found) × σ :=
  match searcher.search store query limit with
  | .error e => (.error e, documents)
  | .ok results =>
    match RecordStore.findChunks store (results.map (·.chunkId)) documents with
    | (.error e, documents) => (.error (.store e), documents)
    | (.ok chunks, documents) => (.ok (withChunks results chunks), documents)

end Searcher

end CodeIndex
