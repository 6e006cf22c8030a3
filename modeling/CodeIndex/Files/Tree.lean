import CodeIndex.Path.Basic
import CodeIndex.Text.Utf8

/-!
# Trees of files

The files that the program works on, as one value: a tree of directories with a working directory
in it.  A path is followed step by step from there, and every step but the last has to lead into a
directory.  There are no links, so a parent step always leads back to where the walk came from.

Names and paths are texts.  A file system may also have names that are not UTF-8; such a name is no
entry of these trees, and nothing that is said about all trees is said about it.

## Main definitions

* `FileNode` is a file or a directory, `FileTree` a tree with a working directory.
* `FileTree.locate` follows a path, `read` and `isFile` look at what is there.
* `FileTree.write` and `makeDirectories` change the tree.
-/

namespace CodeIndex

/-- A file with its content, or a directory with its entries; their names are UTF-8 texts. -/
inductive FileNode where
  | file (content : List UInt8)
  | directory (entries : List (String × FileNode))

/-- Why a path could not be followed, read or written. -/
inductive FileError where
  | notFound | notADirectory | isADirectory | alreadyExists | invalidInput | invalidFilename
deriving DecidableEq, Repr

namespace FileError

/-- The name of the kind of an error. -/
def name : FileError → String
  | notFound => "NotFound"
  | notADirectory => "NotADirectory"
  | isADirectory => "IsADirectory"
  | alreadyExists => "AlreadyExists"
  | invalidInput => "InvalidInput"
  | invalidFilename => "InvalidFilename"

/-- The text of an error. -/
def message : FileError → String
  | notFound => "No such file or directory (os error 2)"
  | notADirectory => "Not a directory (os error 20)"
  | isADirectory => "Is a directory (os error 21)"
  | alreadyExists => "File exists (os error 17)"
  | invalidInput => "file name contained an unexpected NUL byte"
  | invalidFilename => "File name too long (os error 36)"

end FileError

namespace FileNode

/-- An empty directory. -/
def empty : FileNode := directory []

/-- The entry of a directory. -/
def child? (name : String) : FileNode → Option FileNode
  | directory entries => entries.lookup name
  | file _ => none

/-- The node below some entries. -/
def below? : List String → FileNode → Option FileNode
  | [], node => some node
  | name :: rest, node => (node.child? name).bind (below? rest)

/-- Replace or add an entry. -/
def setEntry (entries : List (String × FileNode)) (name : String) (node : FileNode) :
    List (String × FileNode) :=
  if entries.any (·.1 == name) then
    entries.map fun entry => if entry.1 == name then (name, node) else entry
  else entries ++ [(name, node)]

/-- Put a node below some entries, making directories on the way. -/
def insert (new : FileNode) : (names : List String) → FileNode → FileNode
  | [], _ => new
  | name :: rest, node =>
    let entries := match node with
      | directory entries => entries
      | file _ => []
    directory (setEntry entries name (insert new rest ((entries.lookup name).getD empty)))

/-- Remove the node below some entries. -/
def remove : (names : List String) → FileNode → FileNode
  | [], node => node
  | _, file content => file content
  | [name], directory entries => directory (entries.filter (·.1 != name))
  | name :: rest, directory entries =>
    match entries.lookup name with
    | some node => directory (setEntry entries name (node.remove rest))
    | none => directory entries

end FileNode

/-- A tree of files and the directory that relative paths start from. -/
structure FileTree where
  root : FileNode := .empty
  workingDirectory : List String := []

namespace FileTree

/-- The greatest number of bytes of a name. -/
def maxNameLength : Nat := 255

/-- Follow the pieces of a path from a node that is reached by some names. -/
def follow (root : FileNode) : (here : List String) → (pieces : List (List Char)) →
    Except FileError (List String)
  | here, [] => .ok here
  | here, piece :: rest =>
    let name := String.ofList piece
    match root.below? here with
    | none => .error .notFound
    | some (.file _) => .error .notADirectory
    | some (.directory entries) =>
      if Path.isVoid piece then follow root here rest
      else if piece = ['.', '.'] then follow root here.dropLast rest
      else if maxNameLength < name.utf8ByteSize then .error .invalidFilename
      else if entries.any (·.1 == name) then follow root (here ++ [name]) rest
      else .error .notFound

/-- The names by which the end of a path is reached from the root. -/
def namesTo (tree : FileTree) (path : List Char) : Except FileError (List String) :=
  if path.isEmpty then .error .notFound
  else if path.contains '\x00' then .error .invalidInput
  else follow tree.root (if Path.isAbsolute path then [] else tree.workingDirectory)
    (Text.splitAtEvery Path.isSlash path)

/-- What is at the end of a path, and the names by which it is reached. -/
def locate (tree : FileTree) (path : List Char) : Except FileError (List String × FileNode) :=
  match tree.namesTo path with
  | .error e => .error e
  | .ok names =>
    match tree.root.below? names with
    | some node => .ok (names, node)
    | none => .error .notFound

/-- The content of a file. -/
def read (tree : FileTree) (path : List Char) : Except FileError (List UInt8) :=
  match tree.locate path with
  | .error e => .error e
  | .ok (_, .file content) => .ok content
  | .ok (_, .directory _) => .error .isADirectory

/-- Whether a path leads anywhere. -/
def contains (tree : FileTree) (path : List Char) : Bool :=
  match tree.locate path with
  | .ok _ => true
  | .error _ => false

/-- Whether a path leads to a file. -/
def isFile (tree : FileTree) (path : List Char) : Bool :=
  match tree.locate path with
  | .ok (_, .file _) => true
  | _ => false

/-- The names of what a path denotes in a directory that exists, whether it is there itself or
not. -/
def namesOfNew (tree : FileTree) (path : List Char) : Except FileError (List String) :=
  match Path.fileName? path with
  | none => .error .isADirectory
  | some name =>
    match tree.locate (directoryOf path) with
    | .error e => .error e
    | .ok (_, .file _) => .error .notADirectory
    | .ok (names, .directory _) => .ok (names ++ [String.ofList name])
where
  /-- The directory that a path lies in. -/
  directoryOf (path : List Char) : List Char :=
    match Path.parent? path with
    | some (c :: rest) => c :: rest
    | _ => ['.']

/-- Write a file in a directory that exists. -/
def write (tree : FileTree) (path : List Char) (content : List UInt8) :
    Except FileError FileTree :=
  match tree.namesOfNew path with
  | .error e => .error e
  | .ok names =>
    match tree.root.below? names with
    | some (.directory _) => .error .isADirectory
    | _ => .ok { tree with root := FileNode.insert (.file content) names tree.root }

/-- Make the missing directories at the end of a path, below a node that is reached by some
names. -/
def makeFrom (root : FileNode) : (here : List String) → (pieces : List (List Char)) →
    Except FileError FileNode
  | _, [] => .ok root
  | here, piece :: rest =>
    if Path.isVoid piece then makeFrom root here rest
    else if piece = ['.', '.'] then makeFrom root here.dropLast rest
    else
      let names := here ++ [String.ofList piece]
      match root.below? names with
      | some (.directory _) => makeFrom root names rest
      | some (.file _) => .error (if rest.all Path.isVoid then .alreadyExists else .notADirectory)
      | none => makeFrom (FileNode.insert .empty names root) names rest

/-- Make a directory and the missing ones above it. -/
def makeDirectories (tree : FileTree) (path : List Char) : Except FileError FileTree :=
  if path.contains '\x00' then .error .invalidInput
  else
    (makeFrom tree.root (if Path.isAbsolute path then [] else tree.workingDirectory)
      (Text.splitAtEvery Path.isSlash path)).map fun root => { tree with root }

end FileTree

end CodeIndex
