import CodeIndex.Proofs.Chunk.Calm
import CodeIndex.Proofs.Syntax.Measures

/-!
# The tree of a node

The nodes that are half done wait in a list until their children are trees, which comes to the same
as a recursion over the nodes.  The list never runs empty on the way: a node leaves it when it is a
tree, and the tree of the last one is the answer.

Each round of the walk polls the token once.  A round either starts a node or finishes one, so the
number of rounds is known from the nodes that are left, and with it how long the token has to keep
quiet.

## Main definitions

* `Cancellation.outlasts` says that a token answers a number of polls with no.
* `Node.converted` is the recursion, and `unwind` finishes the nodes of a stack with it.
* `rounds` is the number of rounds that the walk takes from a stack.

## Main results

* `Node.fst_finishAll`: the walk with a stack answers as the recursion does, unless it is told to
  stop before its last round.
* `Node.toTree_never`: a token that never fires gets the tree.
* `Node.walks_follow_recursion`: the walks over nodes and trees are the recursions.
-/

namespace CodeIndex

namespace Cancellation

/-- The token answers that many polls with no. -/
def outlasts (token : Cancellation) (polls : Nat) : Bool := token.remaining.all (polls ≤ ·)

variable {token later : Cancellation}

theorem outlasts_zero (token : Cancellation) : token.outlasts 0 = true := by
  obtain ⟨_ | n⟩ := token <;> rfl

theorem outlasts_never (polls : Nat) : never.outlasts polls = true := rfl

/-- A token that has fired answers no poll with no. -/
theorem outlasts_succ_of_fired (h : token.poll = (true, later)) (polls : Nat) :
    token.outlasts (polls + 1) = false := by
  obtain ⟨_ | _ | n⟩ := token
  · cases h
  · exact decide_eq_false (Nat.not_succ_le_zero polls)
  · cases h

/-- A poll that is answered with no leaves one less to be answered so. -/
theorem outlasts_succ (h : token.poll = (false, later)) (polls : Nat) :
    token.outlasts (polls + 1) = later.outlasts polls := by
  obtain ⟨_ | _ | n⟩ := token
  · obtain ⟨-, rfl⟩ := Prod.mk.inj h
    rfl
  · cases h
  · obtain ⟨-, rfl⟩ := Prod.mk.inj h
    exact decide_eq_decide.2 Nat.succ_le_succ_iff

end Cancellation

namespace Grammar

/-! ### The recursion -/

mutual

/-- The tree of a node. -/
def Node.converted : Node → Tree
  | ⟨kind, role, start, stop, children, isComment⟩ =>
    withChildren ⟨kind, role, start, stop, children, isComment⟩ (convertedAll children)

/-- The trees of some nodes. -/
def Node.convertedAll : List Node → List Tree
  | [] => []
  | node :: rest => node.converted :: convertedAll rest

end

theorem Node.convertedAll_eq (nodes : List Node) : convertedAll nodes = nodes.map converted := by
  induction nodes with
  | nil => rfl
  | cons node rest ih => rw [convertedAll, ih, List.map_cons]

theorem Node.converted_eq (node : Node) :
    node.converted = node.withChildren (node.children.map converted) := by
  obtain ⟨kind, role, start, stop, children, isComment⟩ := node
  rw [converted, convertedAll_eq]

/-- A node and its tree have the same children. -/
theorem Node.children_converted (node : Node) :
    node.converted.children = node.children.map converted := by
  rw [converted_eq, Node.withChildren]

/-! ### Stacks -/

/-- The tree of a node that is half done. -/
def Unfinished.finished (unfinished : Unfinished) : Tree :=
  unfinished.node.withChildren
    (unfinished.done.reverse ++ unfinished.waiting.map Node.converted)

/-- The tree of the outermost node of a stack, whose innermost node has a given tree as its next
child. -/
def unwind (tree : Tree) : (stack : List Unfinished) → Tree
  | [] => tree
  | ⟨node, waiting, done⟩ :: outer =>
    unwind (Unfinished.finished ⟨node, waiting, tree :: done⟩) outer

/-- The tree of the outermost node of a stack. -/
def outermost : (stack : List Unfinished) → Except ParseError Tree
  | [] => .error Node.emptyTree
  | unfinished :: outer => .ok (unwind unfinished.finished outer)

/-- The rounds until a node is finished: one for the node, and for each node below it that waits one
to start and one to finish. -/
def Unfinished.rounds (unfinished : Unfinished) : Nat :=
  2 * (unfinished.waiting.map fun child => child.converted.nodeCount).sum + 1

/-- The rounds until all nodes of a stack are finished. -/
def rounds (stack : List Unfinished) : Nat := (stack.map Unfinished.rounds).sum

theorem rounds_cons (unfinished : Unfinished) (outer : List Unfinished) :
    rounds (unfinished :: outer) = unfinished.rounds + rounds outer := by
  rw [rounds, List.map_cons, List.sum_cons, rounds]

theorem Unfinished.rounds_start (node : Node) :
    (start node).rounds + 1 = 2 * node.converted.nodeCount := by
  rw [Tree.nodeCount_eq, Node.children_converted, List.map_map, rounds, start]
  simp only [Function.comp_def]
  omega

/-- A node that starts has been waiting for its rounds. -/
theorem rounds_start_cons (node child : Node) (waiting : List Node) (done : List Tree)
    (outer : List Unfinished) :
    rounds (⟨node, child :: waiting, done⟩ :: outer) =
      rounds (.start child :: ⟨node, waiting, done⟩ :: outer) + 1 := by
  have hstart := Unfinished.rounds_start child
  simp only [rounds_cons, Unfinished.rounds, List.map_cons, List.sum_cons] at hstart ⊢
  omega

/-- A stack of nodes is finished as the recursion would, if the token lets it. -/
theorem Node.fst_finishAll (token : Cancellation) (stack : List Unfinished) :
    (finishAll token stack).1 =
      if token.outlasts (rounds stack) then outermost stack else .error .cancelled := by
  fun_induction finishAll token stack with
  | case1 token => exact (if_pos token.outlasts_zero).symm
  | case2 token node waiting done outer token₁ hpoll =>
    rw [rounds_cons, Unfinished.rounds, Nat.add_right_comm,
      Cancellation.outlasts_succ_of_fired hpoll]
    rfl
  | case3 token node done token₁ hpoll child waiting outer ih =>
    rw [ih, rounds_start_cons, Cancellation.outlasts_succ hpoll]
    simp [outermost, unwind, Unfinished.finished, Unfinished.start, converted_eq child]
  | case4 token node done token₁ hpoll =>
    have hrounds : rounds [⟨node, [], done⟩] = 0 + 1 := rfl
    rw [hrounds, Cancellation.outlasts_succ hpoll, if_pos token₁.outlasts_zero]
    simp [outermost, unwind, Unfinished.finished, Unfinished.tree]
  | case5 token node done token₁ hpoll parent siblings earlier outer ih =>
    have hrounds : rounds (⟨node, [], done⟩ :: ⟨parent, siblings, earlier⟩ :: outer) =
        rounds (⟨parent, siblings, Unfinished.tree ⟨node, [], done⟩ :: earlier⟩ :: outer) + 1 := by
      rw [rounds_cons, Nat.add_comm]
      rfl
    rw [ih, hrounds, Cancellation.outlasts_succ hpoll]
    simp [outermost, unwind, Unfinished.finished, Unfinished.tree]

/-! ### The whole walk -/

/-- A node starts as the only one of a stack. -/
theorem Node.outermost_start (node : Node) : outermost [.start node] = .ok node.converted := by
  rw [outermost, unwind, Unfinished.finished, converted_eq]
  rfl

/-- The walk from a node ends with its tree, after one round to start and one to finish each node
but for the start of the first. -/
theorem Node.fst_toTree (node : Node) (token : Cancellation) :
    (node.toTree token).1 =
      if token.outlasts (2 * node.converted.nodeCount - 1) then .ok node.converted
      else .error .cancelled := by
  have hrounds : rounds [.start node] = 2 * node.converted.nodeCount - 1 := by
    have hstart := Unfinished.rounds_start node
    rw [rounds_cons]
    exact Nat.eq_sub_of_add_eq hstart
  rw [toTree, fst_finishAll, hrounds, outermost_start]

theorem Node.toTree_never (node : Node) :
    node.toTree .never = (.ok node.converted, .never) := by
  have hcalm := unlessCancelled_finishAll .never [.start node]
  have hanswer := node.fst_toTree .never
  rw [if_pos (Cancellation.outlasts_never _)] at hanswer
  unfold toTree at hanswer ⊢
  generalize finishAll .never [.start node] = answer at hcalm hanswer
  cases hcalm with
  | cancelled => cases hanswer
  | same => exact congrArg (·, Cancellation.never) hanswer

/-- The walks that keep what waits in a list come to the recursions over nodes and trees.  A node
becomes the tree that recursion makes of it and of its children in order, unless the token fires
within the rounds of the walk, of which each node takes two and the first one less; and then the
answer is that the call was told to stop, and not that there is no tree.  A tree has one node more
than its children have together, and one level more than the deepest of them. -/
theorem Node.walks_follow_recursion (node : Node) (token : Cancellation) :
    (node.toTree token).1 =
      (if token.outlasts (2 * node.converted.nodeCount - 1) then .ok node.converted
        else .error .cancelled) ∧
    node.converted = node.withChildren (node.children.map converted) ∧
    ∀ tree : Tree, tree.nodeCount = 1 + (tree.children.map Tree.nodeCount).sum ∧
      tree.depth = 1 + (tree.children.map Tree.depth).foldr max 0 :=
  ⟨node.fst_toTree token, node.converted_eq, fun tree => ⟨tree.nodeCount_eq, tree.depth_eq⟩⟩

end Grammar

end CodeIndex
