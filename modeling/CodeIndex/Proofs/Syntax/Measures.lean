import Mathlib.Algebra.GroupWithZero.Nat
import Mathlib.Order.Lattice.Nat
import CodeIndex.Proofs.Syntax.Names

/-!
# Counting nodes and levels

The nodes and the levels of a tree are counted with a list of waiting trees.  One walk puts the
children of a node in front of the list and counts a visit for each node, the other one keeps the
siblings of a node and the level of each list of siblings.  Both come to the recursion over the
tree: a node counts once and in addition to its children, and it is one level above the deepest of
them.

The levels are compared through their bounds.  That all levels are at most some number is a
condition on each waiting tree alone, so the order in which the trees are visited disappears.

## Main definitions

* `Tree.height` is the recursion that counts levels.

## Main results

* `Tree.nodeCount_eq`: the count of a tree from the counts of its children.
* `Tree.depth_eq`: the depth of a tree from the depths of its children.
-/

namespace CodeIndex.Tree

variable {trees : List Tree} {m : Nat}

/-! ## Nodes -/

theorem countFrom_eq (seen : Nat) (waiting : List Tree) :
    countFrom seen waiting = seen + (nodesOfAll waiting).length := by
  fun_induction countFrom seen waiting with
  | case1 seen => rw [nodesOfAll, List.length_nil, Nat.add_zero]
  | case2 seen tree waiting ih => rw [ih, nodesOfAll_cons tree, List.length_cons]; omega

theorem nodeCount_eq_length (tree : Tree) : tree.nodeCount = tree.nodes.length := by
  rw [nodeCount, countFrom_eq, nodesOfAll, nodesOfAll, List.append_nil, Nat.zero_add]

/-- A node counts once, in addition to the nodes of its children. -/
theorem nodeCount_eq (tree : Tree) :
    tree.nodeCount = 1 + (tree.children.map nodeCount).sum := by
  have hchildren : (nodesOfAll tree.children).length = (tree.children.map nodeCount).sum := by
    rw [nodesOfAll_eq, List.length_flatMap]
    exact congrArg List.sum (List.map_congr_left fun child _ => (nodeCount_eq_length child).symm)
  rw [nodeCount_eq_length, nodes_eq, List.length_cons, hchildren, Nat.add_comm]

/-! ## Levels -/

mutual

/-- Number of levels of a tree, by recursion. -/
def height : Tree → Nat
  | ⟨_, _, _, _, _, _, children⟩ => 1 + heightOfAll children

/-- The greatest number of levels of some trees. -/
def heightOfAll : List Tree → Nat
  | [] => 0
  | tree :: rest => max tree.height (heightOfAll rest)

end

theorem height_eq (tree : Tree) : tree.height = 1 + heightOfAll tree.children := by
  cases tree
  rw [height]

theorem heightOfAll_eq (trees : List Tree) :
    heightOfAll trees = (trees.map height).foldr max 0 := by
  induction trees with
  | nil => rfl
  | cons tree rest ih => rw [heightOfAll, ih, List.map_cons, List.foldr_cons]

theorem heightOfAll_le_iff : heightOfAll trees ≤ m ↔ ∀ tree ∈ trees, tree.height ≤ m := by
  induction trees with
  | nil => simp [heightOfAll]
  | cons tree rest ih => rw [heightOfAll, max_le_iff, ih, List.forall_mem_cons]

/-- A tree that starts at some level stays within a bound if its root does and if its children do
that start one level below. -/
theorem level_add_height_le_iff (tree : Tree) (level : Nat) :
    level + tree.height ≤ m + 1 ↔
      level ≤ m ∧ ∀ child ∈ tree.children, level + 1 + child.height ≤ m + 1 := by
  rw [height_eq]
  constructor
  · intro h
    have hall : heightOfAll tree.children ≤ m - level := by omega
    refine ⟨by omega, fun child hchild => ?_⟩
    have hone := heightOfAll_le_iff.1 hall child hchild
    omega
  · rintro ⟨hlevel, hchildren⟩
    have hall : heightOfAll tree.children ≤ m - level :=
      heightOfAll_le_iff.2 fun child hchild => by
        have := hchildren child hchild
        omega
    omega

/-- The walk stays within a bound if what it has seen does and every waiting tree from the level of
its siblings on. -/
theorem depthFrom_le_iff (deepest : Nat) (waiting : List (List Tree × Nat)) :
    depthFrom deepest waiting ≤ m ↔
      deepest ≤ m ∧ ∀ entry ∈ waiting, ∀ tree ∈ entry.1, entry.2 + tree.height ≤ m + 1 := by
  fun_induction depthFrom deepest waiting with
  | case1 deepest => simp
  | case2 deepest level waiting ih => simp [ih]
  | case3 deepest tree siblings level waiting ih =>
    simp only [ih, List.forall_mem_cons, max_le_iff, level_add_height_le_iff tree level]
    tauto

theorem depth_eq_height (tree : Tree) : tree.depth = tree.height := by
  refine eq_of_forall_ge_iff fun m => ?_
  rw [depth, depthFrom_le_iff]
  simp only [List.forall_mem_singleton, Nat.zero_le, true_and]
  omega

/-- A node is one level above the deepest of its children. -/
theorem depth_eq (tree : Tree) :
    tree.depth = 1 + (tree.children.map depth).foldr max 0 := by
  have hdepth : depth = height := funext depth_eq_height
  rw [hdepth, height_eq, heightOfAll_eq]

end CodeIndex.Tree
