import CodeIndex.Files.Ignore
import CodeIndex.Index.Indexer

/-!
# Finding source files

What the command line names are files and directories; what the index takes are source files with
paths that do not depend on where they were named from.

## Main definitions

* `indexedPath` is the path under which the index keeps a file.
* `sourcesAt` finds the files that some arguments stand for: a file stands for itself, a directory
  for the files below it that are in a known language and not hidden.
* `readSources` reads them.
* `isCovered` says which stored paths a synchronisation is about, `survives` which of them stay.
-/

namespace CodeIndex.Files

/-- A text without the current-directory steps at its front. -/
def dropDotSlashes : List Char → List Char
  | '.' :: '/' :: rest => dropDotSlashes rest
  | text => text

/-- The path of a file in the index: relative to the root if the file is below it, with slashes and
without a dot at the front.  The path is a text already; of names that are not UTF-8 the index would
keep replacement characters, the same ones for different octets. -/
def indexedPath (root path : List Char) : String :=
  String.ofList (dropDotSlashes
    (Text.replaceChar '\\' '/' ((Path.stripPrefix? root path).getD path)))

mutual

/-- The indexable files at or below an entry of a directory. -/
def filesAt (levels : Levels) (path : List Char) (name : String) : FileNode → List (List Char)
  | .file _ =>
    let path := Path.join path name.toList
    if levels.isHidden name false || !Language.isKnownFile (String.ofList path) then [] else [path]
  | .directory entries =>
    if levels.isHidden name true then []
    else
      filesIn (levels.enter name (.directory entries)) (Path.join path name.toList) entries

/-- The indexable files below some entries of a directory. -/
def filesIn (levels : Levels) (path : List Char) : List (String × FileNode) → List (List Char)
  | [] => []
  | (name, node) :: rest => filesAt levels path name node ++ filesIn levels path rest

end

/-- The rules of the directories from the root down to the one that some names lead to; `levels`
are those of the directory that the names start from. -/
def levelsTo (levels : Levels) : (names : List String) → FileNode → Levels
  | [], _ => levels
  | name :: rest, node =>
    match node.child? name with
    | some child => levelsTo (levels.enter name child) rest child
    | none => levels

/-- The files that one argument stands for. -/
def expand (tree : FileTree) (path : List Char) : Except String (List (List Char)) :=
  match tree.locate path with
  | .error _ => .error ("cannot access " ++ String.ofList path)
  | .ok (_, .file _) => .ok [path]
  | .ok (names, .directory entries) =>
    .ok (filesIn (levelsTo [(Level.ofDirectory tree.root, [])] names tree.root) path entries)

/-- Whether two paths have the same steps. -/
def samePath (a b : List Char) : Bool := Path.components a == Path.components b

/-- Drop each path that has the same steps as the one before. -/
def dropRepeats : List (List Char) → List (List Char)
  | [] => []
  | [path] => [path]
  | first :: second :: rest =>
    if samePath first second then dropRepeats (first :: rest)
    else first :: dropRepeats (second :: rest)
termination_by paths => paths.length

/-- The files that some arguments stand for, sorted step by step and each once. -/
def sourcesAt (tree : FileTree) (paths : List (List Char)) : Except String (List (List Char)) :=
  (paths.mapM (expand tree)).map fun found =>
    dropRepeats (found.flatten.mergeSort fun a b =>
      Path.notAfter (Path.components a) (Path.components b))

/-- Files that were read, and the paths of those that could not be. -/
structure ReadSources where
  files : List SourceFile := []
  unreadable : List (String × FileError) := []

/-- Read files. -/
def readSources (tree : FileTree) (root : List Char) (paths : List (List Char)) : ReadSources where
  files := paths.filterMap fun path =>
    match tree.read path with
    | .ok content => some ⟨indexedPath root path, content⟩
    | .error _ => none
  unreadable := paths.filterMap fun path =>
    match tree.read path with
    | .ok _ => none
    | .error e => some (indexedPath root path, e)

/-- Whether a stored path lies in one of some scopes; an empty scope and a dot cover every path. -/
def isCovered (scopes : List String) (path : String) : Bool :=
  scopes.any fun scope =>
    let scope := (scope.toList.reverse.dropWhile Path.isSlash).reverse
    scope == [] || scope == ['.'] || path.toList == scope ||
      (scope ++ ['/']).isPrefixOf path.toList

/-- Whether a stored path stays when the given scopes are synchronised: it lies in none of them or
is still a file below the root. -/
def survives (tree : FileTree) (root : List Char) (scopes : List String) (path : String) :
    Bool :=
  !isCovered scopes path || tree.isFile (Path.join root path.toList)

end CodeIndex.Files
