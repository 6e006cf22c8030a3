import CodeIndex.Text.Lines

/-!
# Syntax trees

A parsed file is a tree of nodes, each with its kind, the name it declares if it declares one, the
bytes and the lines it covers, and its children in source order.  Lines are counted from one and
include the last.

Trees can be as deep as a file is long, so every walk keeps the nodes that wait for a visit in a
list of their own: `Tree.nodeCount`, `Tree.depth` and `Tree.declaredNames` are such walks, and
`sizeOf_append` is what makes them end.
-/

namespace CodeIndex

/-- A node of a syntax tree. -/
structure Tree where
  kind : String
  name : Option String
  startByte : Nat
  endByte : Nat
  startLine : Nat
  endLine : Nat
  children : List Tree

namespace Tree

/-- The sizes of two lists add up in the list of both. -/
theorem sizeOf_append (xs ys : List Tree) : sizeOf (xs ++ ys) + 1 = sizeOf xs + sizeOf ys := by
  induction xs with
  | nil => simp [Nat.add_comm]
  | cons x xs ih => simp only [List.cons_append, List.cons.sizeOf_spec]; omega

/-- Visiting a node replaces it by its children, which are smaller. -/
theorem sizeOf_children_append (tree : Tree) (rest : List Tree) :
    sizeOf (tree.children ++ rest) < sizeOf (tree :: rest) := by
  have := sizeOf_append tree.children rest
  cases tree
  simp only [List.cons.sizeOf_spec, Tree.mk.sizeOf_spec] at *
  omega

/-- The text that the node covers in a source, or nothing if the source has no such part. -/
def text (tree : Tree) (source : List Char) : List Char :=
  (Text.slice? source tree.startByte tree.endByte).getD []

/-- Whether the node has no children. -/
def isLeaf (tree : Tree) : Bool := tree.children.isEmpty

/-- Number of nodes of the waiting trees, added to `seen`. -/
def countFrom (seen : Nat) : (waiting : List Tree) → Nat
  | [] => seen
  | tree :: waiting => countFrom (seen + 1) (tree.children ++ waiting)
termination_by waiting => sizeOf waiting
decreasing_by exact sizeOf_children_append _ _

/-- Number of nodes of the tree. -/
def nodeCount (tree : Tree) : Nat := countFrom 0 [tree]

/-- The greatest level among the waiting trees and what is below them, given the levels of the
waiting trees, and `deepest`. -/
def depthFrom (deepest : Nat) : (waiting : List (List Tree × Nat)) → Nat
  | [] => deepest
  | ([], _) :: waiting => depthFrom deepest waiting
  | (tree :: siblings, level) :: waiting =>
    depthFrom (max deepest level) ((tree.children, level + 1) :: (siblings, level) :: waiting)
termination_by waiting => sizeOf (waiting.map Prod.fst)
decreasing_by
  · simp only [List.map_cons, List.cons.sizeOf_spec]
    omega
  · cases tree
    simp only [List.map_cons, List.cons.sizeOf_spec, Tree.mk.sizeOf_spec]
    omega

/-- Number of levels of the tree; a leaf has one. -/
def depth (tree : Tree) : Nat := depthFrom 0 [([tree], 1)]

/-- Add a declared name to the names seen before, if it is new. -/
def addName (names : List String) : Option String → List String
  | some name => if names.contains name then names else names ++ [name]
  | none => names

/-- The names of the waiting trees in pre-order, added to `names` until there are `cap`. -/
def namesFrom (cap : Nat) (names : List String) : (waiting : List Tree) → List String
  | [] => names
  | tree :: waiting =>
    if cap ≤ names.length then names
    else namesFrom cap (addName names tree.name) (tree.children ++ waiting)
termination_by waiting => sizeOf waiting
decreasing_by exact sizeOf_children_append _ _

/-- The names that the node and its descendants declare, in pre-order, each once, at most `cap`. -/
def declaredNames (tree : Tree) (cap : Nat) : List String := namesFrom cap [] [tree]

/-- The tree in pre-order with the level of each node, the root at level zero, added to `rows`,
which holds the earlier nodes in reverse. -/
def rowsFrom (rows : List (Nat × Tree)) : (waiting : List (List Tree × Nat)) → List (Nat × Tree)
  | [] => rows.reverse
  | ([], _) :: waiting => rowsFrom rows waiting
  | (tree :: siblings, level) :: waiting =>
    rowsFrom ((level, tree) :: rows) ((tree.children, level + 1) :: (siblings, level) :: waiting)
termination_by waiting => sizeOf (waiting.map Prod.fst)
decreasing_by
  · simp only [List.map_cons, List.cons.sizeOf_spec]
    omega
  · cases tree
    simp only [List.map_cons, List.cons.sizeOf_spec, Tree.mk.sizeOf_spec]
    omega

/-- The nodes of the tree in pre-order, each with its level. -/
def preorder (tree : Tree) : List (Nat × Tree) := rowsFrom [] [([tree], 0)]

/-- A tree inside `count` nodes of one kind, none of which declares a name. -/
def wrap (kind : String) : (count : Nat) → Tree → Tree
  | 0, tree => tree
  | count + 1, tree =>
    wrap kind count
      ⟨kind, none, tree.startByte, tree.endByte, tree.startLine, tree.endLine, [tree]⟩

end Tree

end CodeIndex
