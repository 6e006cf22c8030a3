import Mathlib.Data.List.Infix
import CodeIndex.Proofs.Text.Slices
import CodeIndex.Syntax.Tree

/-!
# Places in a tree

A node is found from the root by the children to take on the way, and two nodes neither of which is
above the other part at some node, where one takes an earlier child.  In a tree that lies in its
source as a parser lays it out, the one that takes the earlier child ends before the other starts.

## Main definitions

* `Tree.at?` follows an address, `Place` is a node with its address, and `Place.LeftOf` is the order
  of the nodes in the source.
* `Topmost` are the places of the selected nodes that have no selected node above them.
* `Tree.Orderly` is what a parser guarantees of the bytes and lines of a tree.

## Main results

* `topmost_iff_child`: below a node that is not selected, the topmost places are those of the
  children.
* `Tree.Orderly.endByte_le_startByte`: nodes follow each other in the source as their places do.
-/

namespace CodeIndex

namespace Tree

/-- The node that is reached from the root by taking the given children. -/
def at? : Tree → (address : List Nat) → Option Tree
  | tree, [] => some tree
  | tree, i :: address => tree.children[i]?.bind fun child => child.at? address

/-- The node is somewhere in the tree. -/
def Has (tree node : Tree) : Prop :=
  ∃ address, tree.at? address = some node

variable {tree node child : Tree} {address further : List Nat} {i : Nat}

@[simp] theorem at?_nil : tree.at? [] = some tree := rfl

theorem at?_cons :
    tree.at? (i :: address) = tree.children[i]?.bind fun child => child.at? address := rfl

theorem at?_append :
    tree.at? (address ++ further) = (tree.at? address).bind fun node => node.at? further := by
  induction address generalizing tree with
  | nil => rfl
  | cons i address ih =>
    rw [List.cons_append, at?_cons, at?_cons]
    cases tree.children[i]? with
    | none => rfl
    | some child => exact ih

theorem Has.of_at? (h : tree.at? address = some node) : tree.Has node := ⟨address, h⟩

theorem Has.of_mem_children (h : tree.Has node) (hchild : child ∈ node.children) :
    tree.Has child := by
  obtain ⟨address, haddress⟩ := h
  obtain ⟨i, hi⟩ := List.mem_iff_getElem?.1 hchild
  exact ⟨address ++ [i], by simp [at?_append, haddress, at?_cons, hi]⟩

/-- The nodes of a tree are its root and those of its children. -/
theorem has_iff : tree.Has node ↔ node = tree ∨ ∃ child ∈ tree.children, child.Has node := by
  constructor
  · rintro ⟨_ | ⟨i, address⟩, haddress⟩
    · exact .inl (Option.some.inj haddress).symm
    · obtain ⟨child, hi, hchild⟩ := Option.bind_eq_some_iff.1 haddress
      exact .inr ⟨child, List.mem_of_getElem? hi, address, hchild⟩
  · rintro (rfl | ⟨child, hmem, address, hchild⟩)
    · exact ⟨[], rfl⟩
    · obtain ⟨i, hi⟩ := List.mem_iff_getElem?.1 hmem
      exact ⟨i :: address, by simp [at?_cons, hi, hchild]⟩

mutual

/-- The nodes of a tree in pre-order. -/
def nodes : Tree → List Tree
  | ⟨kind, name, startByte, endByte, startLine, endLine, children⟩ =>
    ⟨kind, name, startByte, endByte, startLine, endLine, children⟩ :: nodesOfAll children

/-- The nodes of several trees. -/
def nodesOfAll : List Tree → List Tree
  | [] => []
  | tree :: rest => tree.nodes ++ nodesOfAll rest

end

mutual

theorem mem_nodes : ∀ tree : Tree, node ∈ tree.nodes ↔ tree.Has node
  | ⟨_, _, _, _, _, _, children⟩ => by
    rw [nodes, List.mem_cons, has_iff, mem_nodesOfAll children]

theorem mem_nodesOfAll : ∀ trees : List Tree,
    node ∈ nodesOfAll trees ↔ ∃ tree ∈ trees, tree.Has node
  | [] => by simp [nodesOfAll]
  | tree :: rest => by
    rw [nodesOfAll, List.mem_append, mem_nodes tree, mem_nodesOfAll rest, List.exists_mem_cons_iff]

end

end Tree

/-- A node and the way to it from the root of a tree. -/
structure Place where
  address : List Nat
  node : Tree

/-- The ways to the two places part at some node, and the first takes an earlier child. -/
def Place.LeftOf (first second : Place) : Prop :=
  ∃ common i j below below', first.address = common ++ i :: below ∧
    second.address = common ++ j :: below' ∧ i < j

theorem Place.LeftOf.below {first second first' second' : Place} (h : first.LeftOf second)
    (hfirst : first.address <+: first'.address) (hsecond : second.address <+: second'.address) :
    first'.LeftOf second' := by
  obtain ⟨common, i, j, below, below', haddress, haddress', hlt⟩ := h
  obtain ⟨further, hfurther⟩ := hfirst
  obtain ⟨further', hfurther'⟩ := hsecond
  exact ⟨common, i, j, below ++ further, below' ++ further', by simp [← hfurther, haddress],
    by simp [← hfurther', haddress'], hlt⟩

/-- A selected node of a tree with no selected node above it. -/
structure Topmost (selects : String → Bool) (tree : Tree) (place : Place) : Prop where
  found : tree.at? place.address = some place.node
  selected : selects place.node.kind
  uncovered : ∀ address node, address <+: place.address → address ≠ place.address →
    tree.at? address = some node → ¬ selects node.kind

section Topmost

variable {selects : String → Bool} {tree : Tree} {place : Place}

theorem topmost_iff_root (h : selects tree.kind) :
    Topmost selects tree place ↔ place = ⟨[], tree⟩ := by
  constructor
  · intro htop
    have haddress : place.address = [] := by
      by_contra hne
      exact htop.uncovered [] tree List.nil_prefix (Ne.symm hne) rfl h
    have hnode : tree = place.node := by
      have := htop.found
      rw [haddress] at this
      exact Option.some.inj this
    cases place
    simp_all
  · rintro rfl
    exact ⟨rfl, h, fun address _ habove hne => absurd (List.prefix_nil.1 habove) hne⟩

/-- Below a node that is not selected, the topmost places are those of its children. -/
theorem topmost_iff_child (h : ¬ selects tree.kind) : Topmost selects tree place ↔
    ∃ i child address, tree.children[i]? = some child ∧ place.address = i :: address ∧
      Topmost selects child ⟨address, place.node⟩ := by
  constructor
  · rintro ⟨hfound, hselected, huncovered⟩
    cases haddress : place.address with
    | nil =>
      rw [haddress] at hfound
      exact absurd (Option.some.inj hfound ▸ hselected) h
    | cons i address =>
      rw [haddress] at hfound
      obtain ⟨child, hi, hchild⟩ := Option.bind_eq_some_iff.1 hfound
      refine ⟨i, child, address, hi, rfl, hchild, hselected, ?_⟩
      intro above node habove hne hat
      refine huncovered (i :: above) node ?_ ?_ (by simp [Tree.at?_cons, hi, hat])
      · exact haddress ▸ (List.cons_prefix_cons.2 ⟨rfl, habove⟩)
      · exact haddress ▸ fun heq => hne (List.cons.inj heq).2
  · rintro ⟨i, child, address, hi, haddress, hfound, hselected, huncovered⟩
    refine ⟨by simpa [haddress, Tree.at?_cons, hi] using hfound, hselected, ?_⟩
    intro above node habove hne hat
    rw [haddress] at habove hne
    cases above with
    | nil => exact Option.some.inj hat ▸ h
    | cons j above =>
      obtain ⟨rfl, hbelow⟩ := List.cons_prefix_cons.1 habove
      refine huncovered above node hbelow (fun heq => hne (heq ▸ rfl)) ?_
      simpa [Tree.at?_cons, hi] using hat

end Topmost

/-- The nodes of the tree lie in the source as a parser lays them out. -/
structure Tree.Orderly (source : List Char) (tree : Tree) : Prop where
  bytes_le : ∀ node, tree.Has node → node.startByte ≤ node.endByte
  lines_le : ∀ node, tree.Has node → node.startLine ≤ node.endLine
  /-- Children lie inside their parent. -/
  inside : ∀ node, tree.Has node → ∀ child ∈ node.children,
    node.startByte ≤ child.startByte ∧ child.endByte ≤ node.endByte
  /-- Siblings are in source order and share no byte. -/
  inOrder : ∀ node, tree.Has node → node.children.Pairwise fun a b => a.endByte ≤ b.startByte
  /-- A node does not start or end inside a character, or behind the source. -/
  boundaries : ∀ node, tree.Has node →
    Text.IsBoundary source node.startByte ∧ Text.IsBoundary source node.endByte
  /-- A later start is on the same line or a later one. -/
  startLine_mono : ∀ node node', tree.Has node → tree.Has node' →
    node.startByte ≤ node'.startByte → node.startLine ≤ node'.startLine
  /-- A later end is on the same line or a later one. -/
  endLine_mono : ∀ node node', tree.Has node → tree.Has node' →
    node.endByte ≤ node'.endByte → node.endLine ≤ node'.endLine

namespace Tree.Orderly

variable {source : List Char} {tree : Tree}

theorem iff_nodes : tree.Orderly source ↔
    (∀ node ∈ tree.nodes, (node.startByte ≤ node.endByte ∧ node.startLine ≤ node.endLine) ∧
      (∀ child ∈ node.children,
        node.startByte ≤ child.startByte ∧ child.endByte ≤ node.endByte) ∧
      (node.children.Pairwise fun a b => a.endByte ≤ b.startByte) ∧
      Text.IsBoundary source node.startByte ∧ Text.IsBoundary source node.endByte) ∧
    ∀ node ∈ tree.nodes, ∀ node' ∈ tree.nodes,
      (node.startByte ≤ node'.startByte → node.startLine ≤ node'.startLine) ∧
        (node.endByte ≤ node'.endByte → node.endLine ≤ node'.endLine) := by
  simp only [mem_nodes]
  constructor
  · rintro ⟨hbytes, hlines, hinside, hinOrder, hboundaries, hstart, hend⟩
    exact ⟨fun node h => ⟨⟨hbytes node h, hlines node h⟩, hinside node h, hinOrder node h,
      hboundaries node h⟩, fun node h node' h' => ⟨hstart node node' h h', hend node node' h h'⟩⟩
  · rintro ⟨hnode, hpair⟩
    exact ⟨fun node h => (hnode node h).1.1, fun node h => (hnode node h).1.2,
      fun node h => (hnode node h).2.1, fun node h => (hnode node h).2.2.1,
      fun node h => (hnode node h).2.2.2, fun node node' h h' => (hpair node h node' h').1,
      fun node node' h h' => (hpair node h node' h').2⟩

instance : Decidable (tree.Orderly source) := decidable_of_iff' _ iff_nodes

/-- What is below a node is inside it. -/
theorem within (h : tree.Orderly source) {node below : Tree} (hnode : tree.Has node)
    {address : List Nat} (hbelow : node.at? address = some below) :
    node.startByte ≤ below.startByte ∧ below.endByte ≤ node.endByte := by
  induction address generalizing node with
  | nil =>
    obtain rfl := Option.some.inj hbelow
    exact ⟨le_rfl, le_rfl⟩
  | cons i address ih =>
    obtain ⟨child, hi, hchild⟩ := Option.bind_eq_some_iff.1 hbelow
    have hmem := List.mem_of_getElem? hi
    obtain ⟨hstart, hend⟩ := h.inside node hnode child hmem
    obtain ⟨hstart', hend'⟩ := ih (hnode.of_mem_children hmem) hchild
    exact ⟨hstart.trans hstart', hend'.trans hend⟩

/-- Nodes follow each other in the source as their places do. -/
theorem endByte_le_startByte (h : tree.Orderly source) {first second : Place}
    (hfirst : tree.at? first.address = some first.node)
    (hsecond : tree.at? second.address = some second.node) (hleft : first.LeftOf second) :
    first.node.endByte ≤ second.node.startByte := by
  obtain ⟨common, i, j, below, below', haddress, haddress', hlt⟩ := hleft
  rw [haddress, at?_append] at hfirst
  rw [haddress', at?_append] at hsecond
  obtain ⟨parent, hparent, hfirst⟩ := Option.bind_eq_some_iff.1 hfirst
  obtain ⟨parent', hparent', hsecond⟩ := Option.bind_eq_some_iff.1 hsecond
  obtain rfl := Option.some.inj (hparent.symm.trans hparent')
  obtain ⟨child, hi, hfirst⟩ := Option.bind_eq_some_iff.1 hfirst
  obtain ⟨child', hj, hsecond⟩ := Option.bind_eq_some_iff.1 hsecond
  obtain ⟨hilt, rfl⟩ := List.getElem?_eq_some_iff.1 hi
  obtain ⟨hjlt, rfl⟩ := List.getElem?_eq_some_iff.1 hj
  have hhas : tree.Has parent := ⟨common, hparent⟩
  have hchild := hhas.of_mem_children (List.getElem_mem hilt)
  have hchild' := hhas.of_mem_children (List.getElem_mem hjlt)
  calc first.node.endByte
      ≤ parent.children[i].endByte := (h.within hchild hfirst).2
    _ ≤ parent.children[j].startByte :=
        List.pairwise_iff_getElem.1 (h.inOrder parent hhas) i j hilt hjlt hlt
    _ ≤ second.node.startByte := (h.within hchild' hsecond).1

end Tree.Orderly

end CodeIndex
