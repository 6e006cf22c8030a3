/-!
# BLAKE3

The hash of an octet sequence of any length.  The input is cut into chunks of 1024 octets and each
chunk into blocks of 64.  A chunk is hashed block by block; the chunks are the leaves of a binary
tree whose left subtrees are complete, and a node is hashed from the chaining values of its two
children.  The digest is read off the root.

## Main definitions

* `compress` is the compression function, seven rounds over sixteen words.
* `Node` is a node of the tree before it is known whether it is the root: `Node.chainingValue` is
  what its parent uses, `Node.digest` what the caller gets if it is the root.
* `tree` builds the root, `digest` answers with 32 octets and `hexDigest` writes them in lower-case
  hexadecimal.
-/

namespace CodeIndex.Hash.Blake3

/-- The initial chaining value, and the constant half of every compression's start. -/
def iv : Vector UInt32 8 :=
  #v[0x6A09E667, 0xBB67AE85, 0x3C6EF372, 0xA54FF53A, 0x510E527F, 0x9B05688C, 0x1F83D9AB, 0x5BE0CD19]

/-- The order in which a round's words enter the next round. -/
def permutation : Vector (Fin 16) 16 :=
  #v[2, 6, 3, 10, 7, 0, 4, 13, 1, 11, 12, 5, 9, 14, 15, 8]

/-- Domain flags of a compression. -/
def chunkStart : UInt32 := 1
/-- Set on the last block of a chunk. -/
def chunkEnd : UInt32 := 2
/-- Set on the block of an inner node. -/
def parent : UInt32 := 4
/-- Set on the last compression of the root. -/
def root : UInt32 := 8

/-- Rotate a word to the right by `count` bits, `0 < count < 32`. -/
def rotateRight (word count : UInt32) : UInt32 :=
  word >>> count ||| word <<< (32 - count)

/-- The quarter round on the four words at the given places, with two message words. -/
def quarterRound (s : Vector UInt32 16) (a b c d : Fin 16) (x y : UInt32) : Vector UInt32 16 :=
  let va := s[a] + s[b] + x
  let vd := rotateRight (s[d] ^^^ va) 16
  let vc := s[c] + vd
  let vb := rotateRight (s[b] ^^^ vc) 12
  let va := va + vb + y
  let vd := rotateRight (vd ^^^ va) 8
  let vc := vc + vd
  let vb := rotateRight (vb ^^^ vc) 7
  (((s.set a va).set b vb).set c vc).set d vd

/-- One round: the four columns, then the four diagonals. -/
def round (s m : Vector UInt32 16) : Vector UInt32 16 :=
  let s := quarterRound s 0 4 8 12 m[0] m[1]
  let s := quarterRound s 1 5 9 13 m[2] m[3]
  let s := quarterRound s 2 6 10 14 m[4] m[5]
  let s := quarterRound s 3 7 11 15 m[6] m[7]
  let s := quarterRound s 0 5 10 15 m[8] m[9]
  let s := quarterRound s 1 6 11 12 m[10] m[11]
  let s := quarterRound s 2 7 8 13 m[12] m[13]
  quarterRound s 3 4 9 14 m[14] m[15]

/-- `count` rounds, the message permuted after each. -/
def rounds : Nat → Vector UInt32 16 → Vector UInt32 16 → Vector UInt32 16
  | 0, s, _ => s
  | count + 1, s, m => rounds count (round s m) (Vector.ofFn fun i => m[permutation[i]])

/-- The compression function; the first eight words of the answer are the chaining value. -/
def compress (cv : Vector UInt32 8) (block : Vector UInt32 16) (counter : UInt64)
    (length flags : UInt32) : Vector UInt32 16 :=
  let start : Vector UInt32 16 :=
    #v[cv[0], cv[1], cv[2], cv[3], cv[4], cv[5], cv[6], cv[7], iv[0], iv[1], iv[2], iv[3],
      counter.toUInt32, (counter >>> 32).toUInt32, length, flags]
  let s := rounds 7 start block
  Vector.ofFn fun i : Fin 16 =>
    if h : i.val < 8 then s[i] ^^^ s[i.val + 8]
    else s[i] ^^^ cv[i.val - 8]

/-- The chaining value of a compression. -/
def narrow (s : Vector UInt32 16) : Vector UInt32 8 :=
  Vector.ofFn fun i : Fin 8 => s[i.val]

/-- The word of four octets, least significant first. -/
def wordOf (b0 b1 b2 b3 : UInt8) : UInt32 :=
  b0.toUInt32 ||| b1.toUInt32 <<< 8 ||| b2.toUInt32 <<< 16 ||| b3.toUInt32 <<< 24

/-- The four octets of a word, least significant first. -/
def octetsOf (word : UInt32) : List UInt8 :=
  [word.toUInt8, (word >>> 8).toUInt8, (word >>> 16).toUInt8, (word >>> 24).toUInt8]

/-- The words of a block of at most 64 octets, padded with zeros. -/
def blockWords (octets : List UInt8) : Vector UInt32 16 :=
  let padded := octets.toArray
  Vector.ofFn fun i : Fin 16 =>
    wordOf (padded.getD (4 * i.val) 0) (padded.getD (4 * i.val + 1) 0)
      (padded.getD (4 * i.val + 2) 0) (padded.getD (4 * i.val + 3) 0)

/-- Cut a list into pieces of `size + 1` elements; only the last may be shorter. -/
def pieces (size : Nat) : List UInt8 → List (List UInt8)
  | [] => []
  | b :: rest => (b :: rest.take size) :: pieces size (rest.drop size)
termination_by octets => octets.length
decreasing_by simp only [List.length_drop, List.length_cons]; omega

/-- A node of the tree, up to the flag that says whether it is the root. -/
structure Node where
  cv : Vector UInt32 8
  block : Vector UInt32 16
  counter : UInt64
  length : UInt32
  flags : UInt32

/-- What the parent of a node uses of it. -/
def Node.chainingValue (n : Node) : Vector UInt32 8 :=
  narrow (compress n.cv n.block n.counter n.length n.flags)

/-- The 32 octets that the node yields as the root. -/
def Node.digest (n : Node) : List UInt8 :=
  (narrow (compress n.cv n.block 0 n.length (n.flags ||| root))).toList.flatMap octetsOf

/-- Hash the blocks of a chunk; all but the last are compressed, the last is left as a node. -/
def chunkBlocks (counter : UInt64) (cv : Vector UInt32 8) (start : UInt32) :
    List (List UInt8) → Node
  | [] => ⟨cv, blockWords [], counter, 0, start ||| chunkEnd⟩
  | [last] => ⟨cv, blockWords last, counter, last.length.toUInt32, start ||| chunkEnd⟩
  | block :: rest =>
    chunkBlocks counter (narrow (compress cv (blockWords block) counter 64 start)) 0 rest

/-- The leaf of chunk number `counter`. -/
def chunkNode (octets : List UInt8) (counter : Nat) : Node :=
  chunkBlocks counter.toUInt64 iv chunkStart (pieces 63 octets)

/-- The inner node over two chaining values. -/
def parentNode (left right : Vector UInt32 8) : Node :=
  ⟨iv, left ++ right, 0, 64, parent⟩

/-- The root of the tree over the chunks from number `first` on. -/
def tree (chunks : List (List UInt8)) (first : Nat) : Node :=
  match chunks with
  | [] => chunkNode [] first
  | [chunk] => chunkNode chunk first
  | a :: b :: rest =>
    let left := Nat.pow 2 (rest.length + 1).log2
    parentNode (tree ((a :: b :: rest).take left) first).chainingValue
      (tree ((a :: b :: rest).drop left) (first + left)).chainingValue
termination_by chunks.length
decreasing_by
  all_goals
    have : Nat.pow 2 (rest.length + 1).log2 ≤ rest.length + 1 := Nat.log2_self_le (by omega)
    have : 0 < Nat.pow 2 (rest.length + 1).log2 := Nat.two_pow_pos (rest.length + 1).log2
    simp only [List.length_take, List.length_drop, List.length_cons]
    omega

/-- The 32 octets of the hash. -/
def digest (octets : List UInt8) : List UInt8 :=
  (tree (pieces 1023 octets) 0).digest

/-- A hexadecimal digit in lower case. -/
def hexDigit (n : Nat) : Char :=
  if n < 10 then Char.ofNat (48 + n) else Char.ofNat (87 + n)

/-- The two hexadecimal digits of an octet. -/
def hexOctet (b : UInt8) : List Char :=
  [hexDigit (b.toNat / 16), hexDigit (b.toNat % 16)]

/-- Octets in lower-case hexadecimal. -/
def toHex (octets : List UInt8) : List Char :=
  octets.flatMap hexOctet

/-- The hash in lower-case hexadecimal, 64 digits. -/
def hexDigest (octets : List UInt8) : List Char :=
  toHex (digest octets)

/-- The digest has 32 octets. -/
theorem length_digest (octets : List UInt8) : (digest octets).length = 32 := by
  simp [digest, Node.digest, octetsOf, List.length_flatMap, List.map_const']

end CodeIndex.Hash.Blake3
