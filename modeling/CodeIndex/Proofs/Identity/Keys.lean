import CodeIndex.Identity
import CodeIndex.Proofs.Store.PointNumber

/-!
# Keys of identifiers

What is hashed for an identifier is a tag, a path, a zero octet and a tail of fixed length: two
line numbers of eight octets each for a chunk, the 64 digits of a hash for a version of a document.
A path may hold zero octets and anything that looks like a tail, so a key cannot be read from its
front.  It can be read from its end, because the tails have one length each, and the first octet of
the tag tells the two kinds of keys apart.

## Main results

* `octets_inj`: a text is determined by its octets.
* `littleEndian64_inj`: so is a number of 64 bits.
* `chunkKey_inj`, `documentKey_inj`, `chunkKey_ne_documentKey`: keys are unambiguous.
* `isNumeral_chunkId`: identifiers of chunks are numerals in lower case.
* `identifiers_unambiguous`: all of this, and that the number of a point determines the identifier.
-/

namespace CodeIndex

/-! ## Texts and numbers as octets -/

theorem toByteArray_octets (text : String) : (octets text).toByteArray = text.toByteArray := by
  have htext := String.toByteArray_ofList (l := text.toList)
  rw [String.ofList_toList, List.utf8Encode] at htext
  exact htext.symm

theorem octets_inj {a b : String} : octets a = octets b ↔ a = b := by
  rw [← String.toByteArray_inj, ← toByteArray_octets a, ← toByteArray_octets b,
    List.toByteArray_inj]

theorem length_octets (text : String) : (octets text).length = text.utf8ByteSize := by
  rw [String.utf8ByteSize, ← toByteArray_octets, List.size_toByteArray]

theorem length_littleEndian64 (n : Nat) : (littleEndian64 n).length = 8 := by
  simp [littleEndian64]

/-- Numbers with the same last digits have the same remainder. -/
theorem mod_pow_eq_of_digits {base a b : Nat} (count : Nat)
    (h : ∀ i < count, a / base ^ i % base = b / base ^ i % base) :
    a % base ^ count = b % base ^ count := by
  induction count with
  | zero => rw [Nat.pow_zero, Nat.mod_one, Nat.mod_one]
  | succ count ih =>
    rw [Nat.mod_pow_succ, Nat.mod_pow_succ, ih fun i hi => h i (Nat.lt_succ_of_lt hi),
      h count (Nat.lt_succ_self count)]

/-- The octets are the digits of the number to base 256, and 64 bits have no more than eight. -/
theorem littleEndian64_inj {a b : Nat} (ha : a < 2 ^ 64) (hb : b < 2 ^ 64) :
    littleEndian64 a = littleEndian64 b ↔ a = b := by
  refine ⟨fun h => ?_, fun h => by rw [h]⟩
  have hdigit : ∀ i < 8, a / 256 ^ i % 256 = b / 256 ^ i % 256 := by
    intro i hi
    have hoctet := congrArg (fun octets => octets[i]?.map UInt8.toNat) h
    simpa [littleEndian64, hi, Nat.toUInt8] using hoctet
  have hmod := mod_pow_eq_of_digits 8 hdigit
  rwa [Nat.mod_eq_of_lt (by omega), Nat.mod_eq_of_lt (by omega)] at hmod

/-! ## Hashes in hexadecimal -/

namespace Hash.Blake3

theorem hexDigit_mem {n : Nat} (h : n < 16) : hexDigit n ∈ hexAlphabet := by
  have hall : ∀ m < 16, hexDigit m ∈ hexAlphabet := by decide
  exact hall n h

theorem mem_hexAlphabet_of_mem_toHex {octets : List UInt8} {c : Char} (h : c ∈ toHex octets) :
    c ∈ hexAlphabet := by
  obtain ⟨b, -, hc⟩ := List.mem_flatMap.1 h
  have hb : b.toNat < 256 := b.toNat_lt
  simp only [hexOctet, List.mem_cons, List.not_mem_nil, or_false] at hc
  rcases hc with rfl | rfl
  · exact hexDigit_mem (by omega)
  · exact hexDigit_mem (by omega)

theorem length_toHex (octets : List UInt8) : (toHex octets).length = 2 * octets.length := by
  induction octets with
  | nil => rfl
  | cons b octets ih =>
    rw [toHex] at ih ⊢
    rw [List.flatMap_cons, List.length_append, ih]
    simp [hexOctet]
    omega

theorem length_hexDigest (octets : List UInt8) : (hexDigest octets).length = 64 := by
  rw [hexDigest, length_toHex, length_digest]

end Hash.Blake3

/-- The alphabet is in lower case, so its characters are the digits that are their own lower
case. -/
theorem toLower_of_mem_hexAlphabet {c : Char} (h : c ∈ hexAlphabet) : c.toLower = c := by
  have hall : hexAlphabet.all fun d => d.toLower = d := by decide
  exact of_decide_eq_true (List.all_eq_true.1 hall c h)

theorem isHexDigit_of_mem_hexAlphabet {c : Char} (h : c ∈ hexAlphabet) : IsHexDigit c := by
  rwa [IsHexDigit, toLower_of_mem_hexAlphabet h]

theorem length_octets_contentHash (content : List UInt8) :
    (octets (contentHash content)).length = 64 := by
  have htext : (contentHash content).toList = Hash.Blake3.hexDigest content :=
    String.toList_ofList
  rw [length_octets, utf8ByteSize_eq_length, htext, Hash.Blake3.length_hexDigest]
  intro c hc
  rw [htext] at hc
  exact (isHexDigit_of_mem_hexAlphabet (Hash.Blake3.mem_hexAlphabet_of_mem_toHex hc)).utf8Size

/-! ## Keys -/

/-- A key is read from its end: its tail of known length, the zero octet, and the path behind the
tag. -/
theorem key_inj {tag tail tail' : List UInt8} {path path' : String}
    (hlength : tail.length = tail'.length) :
    tag ++ octets path ++ [0] ++ tail = tag ++ octets path' ++ [0] ++ tail' ↔
      path = path' ∧ tail = tail' := by
  constructor
  · intro h
    obtain ⟨hfront, htail⟩ := List.append_inj' h hlength
    obtain ⟨hfront, -⟩ := List.append_inj' hfront rfl
    exact ⟨octets_inj.1 (List.append_cancel_left hfront), htail⟩
  · rintro ⟨rfl, rfl⟩
    rfl

theorem chunkKey_inj {path path' : String} {first last first' last' : Nat}
    (hfirst : first < 2 ^ 64) (hlast : last < 2 ^ 64) (hfirst' : first' < 2 ^ 64)
    (hlast' : last' < 2 ^ 64) :
    chunkKey path first last = chunkKey path' first' last' ↔
      path = path' ∧ first = first' ∧ last = last' := by
  have htail : littleEndian64 first ++ littleEndian64 last =
      littleEndian64 first' ++ littleEndian64 last' ↔ first = first' ∧ last = last' := by
    rw [← littleEndian64_inj hfirst hfirst', ← littleEndian64_inj hlast hlast']
    constructor
    · intro h
      exact List.append_inj h (by rw [length_littleEndian64, length_littleEndian64])
    · rintro ⟨h, h'⟩
      rw [h, h']
  rw [chunkKey, chunkKey, List.append_assoc _ (littleEndian64 first),
    List.append_assoc _ (littleEndian64 first'), key_inj (by simp [length_littleEndian64]), htail]

theorem documentKey_inj {path path' hash hash' : String}
    (hlength : (octets hash).length = (octets hash').length) :
    documentKey path hash = documentKey path' hash' ↔ path = path' ∧ hash = hash' := by
  rw [documentKey, documentKey, key_inj hlength, octets_inj]

/-- The tags begin with different letters. -/
theorem chunkKey_ne_documentKey (path path' hash : String) (first last : Nat) :
    chunkKey path first last ≠ documentKey path' hash := by
  have hchunk : octets "chunk\x00" = [99, 104, 117, 110, 107, 0] := by decide
  have hdocument : octets "document\x00" = [100, 111, 99, 117, 109, 101, 110, 116, 0] := by decide
  intro h
  rw [chunkKey, documentKey, hchunk, hdocument] at h
  have hhead := congrArg List.head? h
  simp at hhead

/-! ## Identifiers of chunks -/

theorem toList_keyHash (key : List UInt8) :
    (keyHash key).toList = (Hash.Blake3.hexDigest key).take idLength :=
  String.toList_ofList

theorem mem_hexAlphabet_of_mem_keyHash {key : List UInt8} {c : Char}
    (h : c ∈ (keyHash key).toList) : c ∈ hexAlphabet := by
  rw [toList_keyHash] at h
  exact Hash.Blake3.mem_hexAlphabet_of_mem_toHex (List.mem_of_mem_take h)

theorem isNumeral_keyHash (key : List UInt8) : IsNumeral 16 (keyHash key).toList := by
  refine ⟨?_, fun c hc => isHexDigit_of_mem_hexAlphabet (mem_hexAlphabet_of_mem_keyHash hc)⟩
  rw [toList_keyHash, List.length_take, Hash.Blake3.length_hexDigest]
  rfl

/-- An identifier is in lower case already. -/
theorem toLower_keyHash (key : List UInt8) :
    (keyHash key).toList.map Char.toLower = (keyHash key).toList := by
  have hsame : (keyHash key).toList.map Char.toLower = (keyHash key).toList.map id :=
    List.map_congr_left fun c hc => toLower_of_mem_hexAlphabet (mem_hexAlphabet_of_mem_keyHash hc)
  rw [hsame, List.map_id]

theorem pointNumber_keyHash (key : List UInt8) :
    pointNumber (keyHash key) = .ok (numeral (keyHash key).toList) :=
  pointNumber_of_isNumeral (isNumeral_keyHash key)

theorem pointNumber_keyHash_inj {key key' : List UInt8} :
    pointNumber (keyHash key) = pointNumber (keyHash key') ↔ keyHash key = keyHash key' := by
  rw [pointNumber_keyHash, pointNumber_keyHash, Except.ok.injEq,
    numeral_inj (isNumeral_keyHash key) (isNumeral_keyHash key'), toLower_keyHash,
    toLower_keyHash, String.toList_inj]

/-- The octets that are hashed for a chunk determine its path and both line numbers, those hashed
for a version of a document determine its path and the hash of its content, and no key is of both
kinds, whatever characters the paths hold.  The identifier of a chunk is sixteen hexadecimal digits
in lower case; its point is numbered by their value, and two identifiers share a number only if
they are equal. -/
theorem identifiers_unambiguous (path path' : String) :
    (∀ first last first' last' : UInt64,
      chunkKey path first.toNat last.toNat = chunkKey path' first'.toNat last'.toNat ↔
        path = path' ∧ first = first' ∧ last = last') ∧
    (∀ content content' : List UInt8,
      documentKey path (contentHash content) = documentKey path' (contentHash content') ↔
        path = path' ∧ contentHash content = contentHash content') ∧
    (∀ (first last : UInt64) (hash : String),
      chunkKey path first.toNat last.toNat ≠ documentKey path' hash) ∧
    (∀ first last : UInt64,
      let id := chunkId path first.toNat last.toNat
      id.toList.length = 16 ∧ (∀ c ∈ id.toList, c ∈ hexAlphabet) ∧
        pointNumber id = .ok (numeral id.toList)) ∧
    ∀ first last first' last' : UInt64,
      let id := chunkId path first.toNat last.toNat
      let id' := chunkId path' first'.toNat last'.toNat
      pointNumber id = pointNumber id' ↔ id = id' := by
  refine ⟨fun first last first' last' => ?_, fun content content' => ?_,
    fun first last hash => chunkKey_ne_documentKey path path' hash _ _,
    fun first last => ⟨(isNumeral_keyHash _).1, fun c hc => mem_hexAlphabet_of_mem_keyHash hc,
      pointNumber_keyHash _⟩,
    fun first last first' last' => pointNumber_keyHash_inj⟩
  · rw [chunkKey_inj first.toNat_lt last.toNat_lt first'.toNat_lt last'.toNat_lt,
      UInt64.toNat_inj, UInt64.toNat_inj]
  · exact documentKey_inj (by rw [length_octets_contentHash, length_octets_contentHash])

/-- A path that ends like another one with its zero octet and the first octets of a line number is
still told apart from it. -/
theorem identifiers_unambiguous_zeros :
    chunkKey "a" 0 0 ≠ chunkKey "a\x00\x00\x00" 0 0 ∧
    chunkKey "a" 1 2 ≠ documentKey "a" "x" := by
  have hzeros := identifiers_unambiguous "a" "a\x00\x00\x00"
  have hkinds := identifiers_unambiguous "a" "a"
  refine ⟨fun h => ?_, hkinds.2.2.1 1 2 "x"⟩
  have hpath := ((hzeros.1 0 0 0 0).1 h).1
  exact absurd hpath (by decide)

end CodeIndex
