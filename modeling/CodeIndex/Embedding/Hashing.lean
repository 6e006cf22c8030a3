import CodeIndex.Embedding.Basic
import CodeIndex.Identity
import CodeIndex.Text.Alphanumeric
import CodeIndex.Text.Lowercase
import CodeIndex.Text.Words

/-!
# The hashing embedder

A text is embedded without a model: each of its tokens is hashed, the hash chooses a coordinate and
a sign, and the signs are summed up per coordinate.  A sum that is not the zero vector is scaled to
length one.

## Main definitions

* `tokens` are the maximal runs of letters, digits and underscores, in lower case.
* `bucketOf` and `signOf` read the coordinate and the sign off a token's hash.
* `embedText` is the vector of a text, and `hashing` the embedder.
-/

namespace CodeIndex.Embedding

/-- The default number of coordinates. -/
def defaultDimension : Nat := 256

/-- The words of a text in lower case. -/
def tokens (text : String) : List (List Char) :=
  (Text.runs Text.isNameChar text.toList).map Text.toLowercase

/-- The hash of a token. -/
def tokenHash (token : List Char) : List UInt8 :=
  Hash.Blake3.digest (Text.Utf8.encode token)

/-- The number that octets denote, the least significant first. -/
def ofLittleEndian (octets : List UInt8) : Nat :=
  octets.foldr (fun b n => b.toNat + 256 * n) 0

/-- The coordinate that a hash chooses. -/
def bucketOf (dimension : Nat) (hash : List UInt8) : Nat :=
  ofLittleEndian (hash.take 8) % dimension

/-- The sign that a hash chooses. -/
def signOf (hash : List UInt8) : Float32 :=
  if (hash.getD 8 0) &&& 1 == 0 then 1 else -1

/-- Add the sign of a token to the coordinate of the token. -/
def addToken (sums : Array Float32) (token : List Char) : Array Float32 :=
  let hash := tokenHash token
  sums.modify (bucketOf sums.size hash) (· + signOf hash)

/-- The sums of the signs of some tokens. -/
def tokenSums (dimension : Nat) (tokens : List (List Char)) : Array Float32 :=
  tokens.foldl addToken (Array.replicate dimension 0)

/-- The length of a vector. -/
def norm (vector : List Float32) : Float32 :=
  ((vector.map fun v => v * v).foldl (· + ·) 0).sqrt

/-- A vector scaled to length one, unless its length is zero. -/
def normalized (vector : List Float32) : List Float32 :=
  let length := norm vector
  if length > 0 then vector.map (· / length) else vector

/-- The vector of a text. -/
def embedText (dimension : Nat) (text : String) : Vector32 :=
  normalized (tokenSums dimension (tokens text)).toList

/-- The embedder that hashes tokens; it has at least one coordinate. -/
def hashing (dimension : Nat) : Embedder where
  name := "hashing"
  embed _ texts token := (.ok (texts.map (embedText (max dimension 1))), token)

end CodeIndex.Embedding
