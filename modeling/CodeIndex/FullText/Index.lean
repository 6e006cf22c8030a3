import CodeIndex.FullText.Token
import CodeIndex.Number.Logarithm

/-!
# The full-text index

The index keeps, for each row of a table of chunks, the tokens of three of its columns: the path,
the symbols and the content.  A phrase is found in a row if its tokens stand one after the other in
one of the columns.  The rows that hold a phrase of a query are ranked by the BM25 function, in
which an occurrence counts by the weight of its column, a rare phrase counts more than a frequent
one, and a long row less than a short one.

## Main definitions

* `Index.insert` and `Index.delete` keep the index in step with the table.
* `Entry.occurrences` counts a phrase in a row, `Entry.frequency` weighs the count.
* `Index.score` is the BM25 score of a row and `Index.search` lists the rows that match.
-/

namespace CodeIndex.FullText

/-- The texts of a row that are indexed. -/
structure Columns where
  path : List Token
  symbols : List Token
  content : List Token
deriving DecidableEq, Repr

/-- The tokens of the columns of a row. -/
def Columns.ofTexts (path symbols content : String) : Columns :=
  ⟨tokenize path.toList, tokenize symbols.toList, tokenize content.toList⟩

/-- A row of the index. -/
structure Entry where
  row : Nat
  columns : Columns
deriving DecidableEq, Repr

/-- The rows of the index. -/
structure Index where
  entries : List Entry := []

/-- The weights of the columns in a score. -/
def pathWeight : Float := 1.0
/-- The weight of an occurrence among the symbols. -/
def symbolsWeight : Float := 4.0
/-- The weight of an occurrence in the content. -/
def contentWeight : Float := 1.0

/-- The parameter of BM25 that limits the influence of repetition. -/
def saturation : Float := 1.2
/-- The parameter of BM25 that sets the influence of a row's length. -/
def lengthInfluence : Float := 0.75

/-- Number of places at which a phrase stands among some tokens, added to `seen`. -/
def countPhrase (phrase : List Token) (seen : Nat) : List Token → Nat
  | [] => seen
  | token :: rest =>
    countPhrase phrase (if phrase.isPrefixOf (token :: rest) then seen + 1 else seen) rest

namespace Entry

/-- Number of places of a phrase in a column; a phrase without tokens has none. -/
def occurrencesIn (phrase : List Token) (column : List Token) : Nat :=
  if phrase.isEmpty then 0 else countPhrase phrase 0 column

/-- Whether some column holds the phrase. -/
def holds (entry : Entry) (phrase : List Token) : Bool :=
  0 < occurrencesIn phrase entry.columns.path || 0 < occurrencesIn phrase entry.columns.symbols
    || 0 < occurrencesIn phrase entry.columns.content

/-- The places of a phrase, each counted by the weight of its column. -/
def frequency (entry : Entry) (phrase : List Token) : Float :=
  let weigh (column : List Token) (weight frequency : Float) : Float :=
    Nat.repeat (· + weight) (occurrencesIn phrase column) frequency
  weigh entry.columns.content contentWeight
    (weigh entry.columns.symbols symbolsWeight (weigh entry.columns.path pathWeight 0.0))

/-- Number of tokens of the row. -/
def length (entry : Entry) : Nat :=
  entry.columns.path.length + entry.columns.symbols.length + entry.columns.content.length

end Entry

namespace Index

/-- Add a row. -/
def insert (index : Index) (row : Nat) (columns : Columns) : Index :=
  ⟨⟨row, columns⟩ :: index.entries⟩

/-- Remove a row. -/
def delete (index : Index) (row : Nat) : Index :=
  ⟨index.entries.filter fun entry => entry.row != row⟩

/-- The average number of tokens of a row. -/
def averageLength (index : Index) : Float :=
  Float.ofNat (index.entries.foldl (fun n entry => n + entry.length) 0) /
    Float.ofNat index.entries.length

/-- The weight of a phrase by its rarity: the logarithm of the odds against it, or next to nothing
for a phrase that more than half of the rows hold. -/
def rarity (index : Index) (phrase : List Token) : Float :=
  let rows := Float.ofNat index.entries.length
  let holding := Float.ofNat (index.entries.filter (·.holds phrase)).length
  let weight := Number.naturalLog ((rows - holding + 0.5) / (holding + 0.5))
  if weight ≤ 0.0 then 1e-6 else weight

/-- The BM25 score of a row for phrases with their rarities. -/
def score (average : Float) (phrases : List (List Token × Float)) (entry : Entry) : Float :=
  let length := Float.ofNat entry.length
  phrases.foldl (fun sum (phrase, rarity) =>
    let frequency := entry.frequency phrase
    sum + rarity * ((frequency * (saturation + 1.0)) /
      (frequency + saturation *
        (1.0 - lengthInfluence + lengthInfluence * length / average)))) 0.0

/-- The rows that hold any of the phrases, each with its score. -/
def search (index : Index) (phrases : List (List Token)) : List (Nat × Float) :=
  let rated := phrases.map fun phrase => (phrase, index.rarity phrase)
  let average := index.averageLength
  (index.entries.filter fun entry => phrases.any entry.holds).map fun entry =>
    (entry.row, score average rated entry)

end Index

end CodeIndex.FullText
