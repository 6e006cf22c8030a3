import CodeIndex.FullText.Letter
import CodeIndex.Text.Utf8

/-!
# Tokens of a text

The full-text index reads a text as a sequence of tokens.  A token starts with a letter or digit,
goes on over letters, digits and combining marks, and is folded.  `tokenize` is an automaton that
reads the text once.

Texts and queries are read alike, and the index compares octets, of which it keeps only so many of
a token: two long tokens that start alike are one token to it.
-/

namespace CodeIndex.FullText

/-- The octets that the index keeps of a token. -/
abbrev Token := List UInt8

/-- The greatest number of octets that are kept of a token. -/
def maxTokenSize : Nat := 32768

/-- What is kept of a token in folded form; a cut can fall inside a character. -/
def Token.ofFolded (folded : List Char) : Token :=
  (Text.Utf8.encode folded).take maxTokenSize

/-- What is known between two characters: the tokens before, the last first, and the token that is
being read in folded form, last character first. -/
structure Tokenizer where
  tokens : List Token := []
  current : Option (List Char) := none

namespace Tokenizer

/-- End the token that is being read. -/
def close (t : Tokenizer) : Tokenizer :=
  match t.current with
  | none => t
  | some folded => ⟨.ofFolded folded.reverse :: t.tokens, none⟩

/-- Read one character. -/
def step (t : Tokenizer) (c : Char) : Tokenizer :=
  match t.current with
  | some folded =>
    if isTokenChar c || isDiacritic c then
      { t with current := some ((foldChar? c).toList ++ folded) }
    else t.close
  | none => if isTokenChar c then { t with current := some (foldChar? c).toList } else t

end Tokenizer

/-- The tokens of a text. -/
def tokenize (text : List Char) : List Token :=
  (text.foldl Tokenizer.step {}).close.tokens.reverse

end CodeIndex.FullText
