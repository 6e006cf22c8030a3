import CodeIndex.Proofs.Symbol.Distinct
import CodeIndex.Proofs.Syntax.Places

/-!
# The names that a tree declares

A tree is searched for names with a list of waiting nodes and is left as soon as there are enough of
them.  Without the list and the limit, the names are those of the nodes in pre-order.

## Main definitions

* `Tree.names` are the names of the nodes of a tree in pre-order, with their repetitions.

## Main results

* `Tree.namesFrom_firstDistinct`: what the search adds to the names that were met before.
* `Tree.declaredNames_eq`: the search finds the first different names.
-/

namespace CodeIndex.Tree

/-- The names of the nodes of a tree in pre-order. -/
def names (tree : Tree) : List String := tree.nodes.filterMap Tree.name

variable {cap : Nat} {seen : List String} {waiting : List Tree}

/-- The nodes of a tree are its root and those of its children. -/
theorem nodes_eq (tree : Tree) : tree.nodes = tree :: nodesOfAll tree.children := by
  cases tree
  rw [nodes]

theorem nodesOfAll_eq (trees : List Tree) : nodesOfAll trees = trees.flatMap nodes := by
  induction trees with
  | nil => rfl
  | cons tree rest ih => rw [nodesOfAll, ih, List.flatMap_cons]

/-- A visit puts a node in front of the nodes that are left. -/
theorem nodesOfAll_cons (tree : Tree) (waiting : List Tree) :
    nodesOfAll (tree :: waiting) = tree :: nodesOfAll (tree.children ++ waiting) := by
  rw [nodesOfAll_eq (tree.children ++ waiting), List.flatMap_append, ← nodesOfAll_eq,
    ← nodesOfAll_eq, nodesOfAll, nodes_eq, List.cons_append]

/-- The name of a node is collected as long as there is room. -/
theorem addName_firstDistinct (hroom : (firstDistinct cap seen).length < cap)
    (name : Option String) :
    addName (firstDistinct cap seen) name = firstDistinct cap (seen ++ name.toList) := by
  cases name with
  | none => rw [addName, Option.toList_none, List.append_nil]
  | some name =>
    rw [addName, Option.toList_some, firstDistinct_concat]
    by_cases h : name ∈ firstDistinct cap seen
    · rw [if_pos (List.contains_iff_mem.2 h), if_neg fun hboth => hboth.2 h]
    · rw [if_neg fun hmem => h (List.contains_iff_mem.1 hmem), if_pos ⟨hroom, h⟩]

/-- The search of the waiting trees goes on as if it had seen the names before. -/
theorem namesFrom_firstDistinct (cap : Nat) (seen : List String) (waiting : List Tree) :
    namesFrom cap (firstDistinct cap seen) waiting =
      firstDistinct cap (seen ++ (nodesOfAll waiting).filterMap Tree.name) := by
  generalize hnames : firstDistinct cap seen = names
  fun_induction namesFrom cap names waiting generalizing seen with
  | case1 names =>
    rw [nodesOfAll, List.filterMap_nil, List.append_nil]
    exact hnames.symm
  | case2 names tree waiting hfull =>
    -- The search stops here, and what is left would not be added.
    rw [← hnames] at hfull
    rw [firstDistinct_append_of_full hfull]
    exact hnames.symm
  | case3 names tree waiting hroom ih =>
    rw [← hnames] at hroom ih ⊢
    have hadded := addName_firstDistinct (Nat.lt_of_not_le hroom) tree.name
    rw [ih (seen ++ tree.name.toList) hadded.symm, nodesOfAll_cons, List.append_assoc]
    cases hname : tree.name with
    | none => rw [List.filterMap_cons_none hname, Option.toList_none, List.nil_append]
    | some name => rw [List.filterMap_cons_some hname, Option.toList_some, List.singleton_append]

/-- The names that are declared in a tree are the first different ones of its nodes. -/
theorem declaredNames_eq (tree : Tree) (cap : Nat) :
    tree.declaredNames cap = firstDistinct cap tree.names := by
  have hsearch := namesFrom_firstDistinct cap [] [tree]
  rwa [firstDistinct_nil, List.nil_append, nodesOfAll, nodesOfAll, List.append_nil] at hsearch

end CodeIndex.Tree
