/-!
# Reading octets as UTF-8

A decoder reads octets one by one.  Between two octets it either stands at a character boundary
or inside a sequence, of which it knows how many continuation octets are missing and between which
bounds the next one lies.  An octet that does not fit ends the sequence: the malformed part becomes
one replacement character, and the octet is read again as the start of a new sequence.

## Main definitions

* `Decoder.step` is the automaton, `decode` its run over a whole input.
* `Decoded.malformed` tells whether any part had to be replaced; `strict?` is the text of an input
  without such a part, and `lossy` the text of any input.
* `encode` writes characters as octets.
-/

namespace CodeIndex.Text.Utf8

/-- What is known between two octets: the characters read so far (last first), whether a part was
malformed, and the sequence that is open, if `missing` is not zero: its code so far and the bounds
of the next octet. -/
structure Decoder where
  read : List Char := []
  malformed : Bool := false
  missing : Nat := 0
  code : Nat := 0
  low : UInt8 := 0x80
  high : UInt8 := 0xBF

/-- The replacement character. -/
def replacement : Char := '\uFFFD'

/-- Replace a malformed part. -/
def Decoder.replace (d : Decoder) : Decoder :=
  { read := replacement :: d.read, malformed := true }

/-- Open a sequence of `missing` further octets. -/
def Decoder.open (d : Decoder) (missing code : Nat) (low high : UInt8) : Decoder :=
  { d with missing, code, low, high }

/-- Read the first octet of a sequence. -/
def Decoder.start (d : Decoder) (b : UInt8) : Decoder :=
  if b < 0x80 then { d with read := Char.ofNat b.toNat :: d.read, missing := 0 }
  else if b < 0xC2 then d.replace
  else if b < 0xE0 then d.open 1 (b.toNat - 0xC0) 0x80 0xBF
  else if b < 0xF0 then
    d.open 2 (b.toNat - 0xE0) (if b == 0xE0 then 0xA0 else 0x80) (if b == 0xED then 0x9F else 0xBF)
  else if b < 0xF5 then
    d.open 3 (b.toNat - 0xF0) (if b == 0xF0 then 0x90 else 0x80) (if b == 0xF4 then 0x8F else 0xBF)
  else d.replace

/-- Read one octet. -/
def Decoder.step (d : Decoder) (b : UInt8) : Decoder :=
  match d.missing with
  | 0 => d.start b
  | missing + 1 =>
    if d.low ≤ b && b ≤ d.high then
      let code := d.code * 64 + (b.toNat - 0x80)
      match missing with
      | 0 => { d with read := Char.ofNat code :: d.read, missing := 0 }
      | rest + 1 => d.open (rest + 1) code 0x80 0xBF
    else d.replace.start b

/-- End of input: a sequence that is still open is malformed. -/
def Decoder.finish (d : Decoder) : Decoder :=
  if d.missing = 0 then d else d.replace

/-- The text of an input, and whether any part of it was malformed. -/
structure Decoded where
  text : List Char
  malformed : Bool

/-- Read a whole input. -/
def decode (octets : List UInt8) : Decoded :=
  let d := (octets.foldl Decoder.step {}).finish
  ⟨d.read.reverse, d.malformed⟩

/-- The text of a well-formed input. -/
def strict? (octets : List UInt8) : Option (List Char) :=
  let d := decode octets
  if d.malformed then none else some d.text

/-- The text of any input, with one replacement character for each malformed part. -/
def lossy (octets : List UInt8) : List Char :=
  (decode octets).text

/-- The octets of a text. -/
def encode (text : List Char) : List UInt8 :=
  text.flatMap String.utf8EncodeChar

end CodeIndex.Text.Utf8
