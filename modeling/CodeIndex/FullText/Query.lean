import CodeIndex.Text.Alphanumeric
import CodeIndex.Text.Words

/-!
# Full-text queries

The full-text index is asked with an expression: quoted phrases joined by the operator `OR`.  Free
text becomes such an expression by quoting each of its words, so that nothing in it is taken for an
operator.

## Main definitions

* `queryWords` are the words of free text, and `encode?` its expression, if it has a word.
* `read?` reads an expression: inside a phrase a quote is written twice, and between two phrases
  stands the operator with a blank on either side.
-/

namespace CodeIndex.FullText

open CodeIndex.Text (runs isNameChar joinWith)

/-- The words of free text. -/
def queryWords (query : List Char) : List (List Char) := runs isNameChar query

/-- A word in quotes; a word holds no quote. -/
def quoted (word : List Char) : List Char := '"' :: (word ++ ['"'])

/-- The operator between two phrases. -/
def orOperator : List Char := [' ', 'O', 'R', ' ']

/-- The expression that asks for any word of a text; none if there is no word. -/
def encode? (query : List Char) : Option (List Char) :=
  match queryWords query with
  | [] => none
  | words => some (joinWith orOperator (words.map quoted))

/-- Read a phrase up to its closing quote; `phrase` holds the characters before, in reverse. -/
def readPhrase (phrase : List Char) : List Char → Option (List Char × List Char)
  | [] => none
  | '"' :: '"' :: rest => readPhrase ('"' :: phrase) rest
  | '"' :: rest => some (phrase.reverse, rest)
  | c :: rest => readPhrase (c :: phrase) rest

/-- Read at most `fuel` phrases; `phrases` holds the ones before, in reverse. -/
def readPhrases : (fuel : Nat) → (phrases : List (List Char)) → List Char →
    Option (List (List Char))
  | 0, _, _ => none
  | fuel + 1, phrases, text =>
    match text with
    | '"' :: rest =>
      match readPhrase [] rest with
      | none => none
      | some (phrase, []) => some (phrase :: phrases).reverse
      | some (phrase, ' ' :: 'O' :: 'R' :: ' ' :: rest) =>
        readPhrases fuel (phrase :: phrases) rest
      | some _ => none
    | _ => none

/-- The phrases of an expression. -/
def read? (expression : List Char) : Option (List (List Char)) :=
  readPhrases (expression.length + 1) [] expression

end CodeIndex.FullText
