/-!
# Maximal runs

`runs p text` lists, in order, the maximal runs of characters with the property `p`; what lies
between them is dropped.  Names, query words and embedding tokens are all runs, of different
properties.
-/

namespace CodeIndex.Text

/-- Close the run that is being read, if it is not empty. -/
def closeRun (run : List Char) (found : List (List Char)) : List (List Char) :=
  if run.isEmpty then found else run :: found

/-- Read a text from its end: the run that is still open at its start, and the runs after it. -/
def openRuns (p : Char → Bool) (text : List Char) : List Char × List (List Char) :=
  text.foldr (fun c state =>
    if p c then (c :: state.1, state.2) else ([], closeRun state.1 state.2))
    ([], [])

/-- The maximal runs of characters with the property `p`, in order. -/
def runs (p : Char → Bool) (text : List Char) : List (List Char) :=
  let state := openRuns p text
  closeRun state.1 state.2

/-- Split at every character with the property `p`, keeping empty pieces. -/
def splitAtEvery (p : Char → Bool) (text : List Char) : List (List Char) :=
  text.foldr (fun c pieces =>
    if p c then [] :: pieces
    else match pieces with
      | [] => [[c]]
      | piece :: rest => (c :: piece) :: rest) [[]]

/-- Replace every occurrence of one character. -/
def replaceChar (old new : Char) (text : List Char) : List Char :=
  text.map fun c => if c == old then new else c

/-- The pieces with `separator` between each two. -/
def joinWith (separator : List Char) (pieces : List (List Char)) : List Char :=
  (pieces.intersperse separator).flatten

end CodeIndex.Text
