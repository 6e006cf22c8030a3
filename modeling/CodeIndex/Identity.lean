import CodeIndex.Hash.Blake3
import CodeIndex.Text.Utf8

/-!
# Identifiers of documents and chunks

Identifiers are functions of what they identify, so that indexing the same content twice yields
the same ones: a chunk is identified by the path and the lines it covers, a version of a document
by the path and the hash of its content.  Both are the first sixteen hexadecimal digits of a hash
over a text that names the kind of identifier and then its parts.

## Main definitions

* `contentHash` is the hash of raw file content.
* `chunkKey` and `documentKey` are the octets that are hashed; `chunkId` and `documentId` are the
  identifiers.
-/

namespace CodeIndex

/-- The octets of a text. -/
def octets (text : String) : List UInt8 :=
  Text.Utf8.encode text.toList

/-- The hash of file content, 64 hexadecimal digits. -/
def contentHash (content : List UInt8) : String :=
  String.ofList (Hash.Blake3.hexDigest content)

/-- The eight octets of a number, least significant first. -/
def littleEndian64 (n : Nat) : List UInt8 :=
  (List.range 8).map fun i => (n / Nat.pow 256 i).toUInt8

/-- Number of hexadecimal digits of an identifier. -/
def idLength : Nat := 16

/-- The identifier that a key hashes to. -/
def keyHash (key : List UInt8) : String :=
  String.ofList ((Hash.Blake3.hexDigest key).take idLength)

/-- What identifies a chunk: its path and the lines it covers. -/
def chunkKey (path : String) (startLine endLine : Nat) : List UInt8 :=
  octets "chunk\x00" ++ octets path ++ [0] ++ littleEndian64 startLine ++ littleEndian64 endLine

/-- What identifies a version of a document: its path and the hash of its content. -/
def documentKey (path contentHash : String) : List UInt8 :=
  octets "document\x00" ++ octets path ++ [0] ++ octets contentHash

/-- The identifier of a chunk. -/
def chunkId (path : String) (startLine endLine : Nat) : String :=
  keyHash (chunkKey path startLine endLine)

/-- The identifier of a version of a document. -/
def documentId (path contentHash : String) : String :=
  keyHash (documentKey path contentHash)

end CodeIndex
