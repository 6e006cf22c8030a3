import CodeIndex.Embedding.Basic
import CodeIndex.Store.Error
import CodeIndex.Syntax.Parser

/-!
# Errors of the index

Why the index could not do what it was asked for.  A store that does not exist is an error of its
own, whichever store call reported it; every other store error is passed on as such.

## Main definitions

* `IndexError` are the causes, and `IndexError.message` their texts.
* `IndexError.ofStore`, `IndexError.ofParse` and `IndexError.ofEmbed` take the errors of the parts
  that the index is made of.
-/

namespace CodeIndex

/-- Why an operation of the index failed. -/
inductive IndexError where
  /-- The call was told to stop. -/
  | cancelled
  /-- The named store has not been created. -/
  | notFound (store : String)
  /-- The store failed for another reason. -/
  | store (error : StoreError)
  /-- The language has no grammar. -/
  | unsupported (language : Language)
  /-- The file could not be parsed or cut. -/
  | parse (reason : String)
  /-- The chunks could not be embedded. -/
  | embedding (reason : String)
  /-- The file is not acceptable. -/
  | invalidDocument (reason : String)
deriving DecidableEq, Repr

namespace IndexError

/-- An error of a store call. -/
def ofStore : StoreError → IndexError
  | .storeNotFound name => notFound name
  | error => store error

/-- An error met while a file was cut into chunks. -/
def ofParse : ParseError → IndexError
  | .cancelled => cancelled
  | .unsupported language => unsupported language
  | .unusable reason => parse reason

/-- An error of the embedder. -/
def ofEmbed (error : EmbedError) : IndexError := embedding error.reason

/-- The text of an error. -/
def message : IndexError → String
  | cancelled => "operation cancelled"
  | notFound name => "store not found: " ++ name
  | store error => "store error: " ++ error.message
  | unsupported language => "unsupported language: " ++ language.id
  | parse reason => "parse failed: " ++ reason
  | embedding reason => "embedding failed: " ++ reason
  | invalidDocument reason => "invalid document: " ++ reason

/-- Whether the error ends a batch; any other is noted in the report and the batch goes on. -/
def endsBatch : IndexError → Bool
  | cancelled => true
  | notFound _ => true
  | _ => false

end IndexError

end CodeIndex
