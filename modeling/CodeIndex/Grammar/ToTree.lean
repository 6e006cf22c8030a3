import CodeIndex.Grammar.Pattern
import CodeIndex.Syntax.Parser

/-!
# From nodes to trees

The nodes that a grammar makes become a syntax tree: roles turn into names, and places into byte
offsets and line numbers.  Nodes can be nested as deeply as a source is long, so the nodes that are
half done are kept in a list, and the cancellation token is polled before each step.

## Main definitions

* `Node.declaredName` is the name that a node declares.
* `Unfinished` is a node some of whose children are trees already, and `Node.finishAll` does the
  rest.
* `Node.toTree` is the tree of a node.
-/

namespace CodeIndex.Grammar

namespace Node

/-- The kind of the nodes that are named for the type they are about. -/
def implementationKind : String := "impl_item"

/-- The first child that plays a role. -/
def child? (node : Node) (role : String) : Option Node :=
  node.children.find? fun child => child.role == some role

/-- The first name in a text. -/
def firstName? (text : List Char) : Option String :=
  match (text.dropWhile fun c => !Scan.isNamePart c).takeWhile Scan.isNamePart with
  | [] => none
  | name => some (String.ofList name)

/-- The name that a node declares: the first name in its part with the role `name`, or with the role
`type` if it is an implementation. -/
def declaredName (node : Node) : Option String :=
  let part := (node.child? "name").or
    (if node.kind = implementationKind then node.child? "type" else none)
  part.bind fun part => firstName? (part.start.textTo part.stop)

/-- The tree of a node, given those of its children. -/
def withChildren (node : Node) (children : List Tree) : Tree where
  kind := node.kind
  name := node.declaredName
  startByte := node.start.byte
  endByte := node.stop.byte
  startLine := node.start.row + 1
  endLine := node.stop.row + 1
  children := children

end Node

/-- A node of which some children are trees already, the last one first. -/
structure Unfinished where
  node : Node
  waiting : List Node
  done : List Tree := []

namespace Unfinished

/-- A node of which no child is a tree yet. -/
def start (node : Node) : Unfinished := { node, waiting := node.children }

/-- The tree of a node whose children are done. -/
def tree (unfinished : Unfinished) : Tree := unfinished.node.withChildren unfinished.done.reverse

end Unfinished

namespace Node

/-- Why there is no tree of a stack without nodes. -/
def emptyTree : ParseError := .unusable "empty syntax tree"

/-- Finish the nodes of a stack, the innermost of which is the first: the tree of the last one,
unless the token fires. -/
def finishAll (token : Cancellation) :
    (stack : List Unfinished) → Except ParseError Tree × Cancellation
  | [] => (.error emptyTree, token)
  | ⟨node, waiting, done⟩ :: outer =>
    match token.poll with
    | (true, token) => (.error .cancelled, token)
    | (false, token) =>
      match waiting, outer with
      | child :: waiting, outer =>
        finishAll token (.start child :: ⟨node, waiting, done⟩ :: outer)
      | [], [] => (.ok (Unfinished.tree ⟨node, [], done⟩), token)
      | [], ⟨parent, siblings, earlier⟩ :: outer =>
        finishAll token
          (⟨parent, siblings, Unfinished.tree ⟨node, [], done⟩ :: earlier⟩ :: outer)
termination_by stack => sizeOf (stack.map Unfinished.waiting)
decreasing_by
  · cases child
    simp only [Unfinished.start, List.map_cons, List.cons.sizeOf_spec, Node.mk.sizeOf_spec]
    omega
  · simp only [List.map_cons, List.cons.sizeOf_spec]
    omega

/-- The tree of a node, unless the token fires. -/
def toTree (node : Node) (token : Cancellation) : Except ParseError Tree × Cancellation :=
  finishAll token [.start node]

end Node

end CodeIndex.Grammar
