import CodeIndex.Files.Tree

/-!
# What has changed in a tree of files

A command works on a tree as a value; `FileTree.changes` lists what has to be done to files that
were like the tree before to make them like the tree afterwards.  Nothing is ever removed.
-/

namespace CodeIndex

/-- Something that is new or different, with the names by which it is reached from the root. -/
inductive FileChange where
  | made (names : List String)
  | written (names : List String) (content : List UInt8)

namespace FileNode

/-- Whether a node is a directory. -/
def isDirectory : FileNode → Bool
  | directory _ => true
  | file _ => false

/-- Whether a node is a file with some content. -/
def hasContent (content : List UInt8) : FileNode → Bool
  | file old => old == content
  | directory _ => false

mutual

/-- What is new or different in a node that is reached by some names, given what was there. -/
def changesAt (names : List String) (before : Option FileNode) : FileNode → List FileChange
  | file content =>
    if before.any (hasContent content) then [] else [.written names content]
  | directory entries =>
    (if before.any isDirectory then [] else [.made names]) ++ changesIn names before entries

/-- What is new or different in some entries of a directory. -/
def changesIn (names : List String) (before : Option FileNode) :
    List (String × FileNode) → List FileChange
  | [] => []
  | (name, node) :: entries =>
    changesAt (names ++ [name]) (before.bind (child? name)) node ++ changesIn names before entries

end

end FileNode

/-- What is new or different in a tree, directories before what is in them. -/
def FileTree.changes (before after : FileTree) : List FileChange :=
  FileNode.changesAt [] (some before.root) after.root

end CodeIndex
