import CodeIndex.Proofs.Grammar.Placement
import CodeIndex.Proofs.Grammar.Recursion
import CodeIndex.Proofs.Syntax.LineNumbers

/-!
# The tree of a parsed source

What is known of the places of the nodes is known of the bytes and lines of the tree that is made of
them, so the trees that the grammars make have their lines from the source.

## Main definitions

* `Node.Nested` says that nodes hold the nodes in them.

## Main results

* `Node.Placed.located`: a tree of placed nodes is located in the source.
* `parse_parserOf`: parsing answers with the tree of what is read.
* `parser_inclusiveLines`: the parser that knows the grammars makes such a tree of every source.
-/

namespace CodeIndex.Grammar

variable {source : List Char} {language : Language} {root : Node}
  {read : Language → List Char → Option Node}

/-! ### Places and bytes -/

theorem Cursor.Placed.isBoundary {c : Cursor} (h : c.Placed source) :
    Text.IsBoundary source c.byte := by
  obtain ⟨before, hsource, hbyte, -⟩ := h
  exact ⟨before, c.rest, hsource, hbyte.symm⟩

theorem Cursor.Placed.row_eq {c : Cursor} (h : c.Placed source) :
    c.row = Text.newlinesBefore c.byte source := by
  obtain ⟨before, hsource, hbyte, hrow⟩ := h
  rw [hrow, hbyte, hsource, Text.newlinesBefore_byteLength]

theorem Node.Placed.withChildren (h : root.Placed source) (children : List Tree) :
    (root.withChildren children).Located source where
  boundaries := ⟨h.start.isBoundary, h.stop.isBoundary⟩
  startLine := (Nat.add_comm _ _).trans (congrArg (1 + ·) h.start.row_eq)
  endLine := (Nat.add_comm _ _).trans (congrArg (1 + ·) h.stop.row_eq)

/-- The nodes of a tree are the root and those of the trees of the nodes in the root. -/
theorem Node.has_converted {node : Tree} : root.converted.Has node ↔
    node = root.converted ∨ ∃ child ∈ root.children, child.converted.Has node := by
  have hchildren : root.converted.children = root.children.map converted := by
    rw [converted_eq, Node.withChildren]
  rw [Tree.has_iff, hchildren]
  simp

/-- The tree of placed nodes is located in the source. -/
theorem Node.Placed.located (h : root.Placed source) :
    ∀ node, root.converted.Has node → node.Located source := by
  induction h with
  | mk start stop children ih =>
    intro node hnode
    obtain rfl | ⟨child, hchild, hbelow⟩ := has_converted.1 hnode
    · rw [converted_eq]
      exact (Node.Placed.mk start stop children).withChildren _
    · exact ih child hchild node hbelow

/-- The bytes of each node are in order and hold those of the nodes in it, which are in order. -/
inductive Node.Nested : Node → Prop where
  | mk {node : Node} (bytes_le : node.start.byte ≤ node.stop.byte)
    (inside : ∀ child ∈ node.children,
      node.start.byte ≤ child.start.byte ∧ child.stop.byte ≤ node.stop.byte)
    (inOrder : node.children.Pairwise fun a b => a.stop.byte ≤ b.start.byte)
    (children : ∀ child ∈ node.children, Node.Nested child) : Node.Nested node

theorem Node.startByte_converted (node : Node) : node.converted.startByte = node.start.byte := by
  rw [converted_eq, Node.withChildren]

theorem Node.endByte_converted (node : Node) : node.converted.endByte = node.stop.byte := by
  rw [converted_eq, Node.withChildren]

/-- The trees of nested nodes hold their children. -/
theorem Node.Nested.holdsChildren (h : root.Nested) :
    ∀ node, root.converted.Has node → node.HoldsChildren := by
  induction h with
  | @mk root bytes_le inside inOrder children ih =>
    intro node hnode
    obtain rfl | ⟨child, hchild, hbelow⟩ := has_converted.1 hnode
    · rw [converted_eq]
      refine ⟨bytes_le, List.forall_mem_map.2 fun child hchild => ?_, List.pairwise_map.2 ?_⟩
      · rw [startByte_converted, endByte_converted]
        exact inside child hchild
      · simpa only [startByte_converted, endByte_converted] using inOrder
    · exact ih child hchild node hbelow

/-! ### Parsing -/

/-- Parsing answers with the tree of what is read, unless it is told to stop. -/
theorem parse_parserOf (h : read language source = some root) :
    (parserOf read).parse source language .never = (.ok root.converted, .never) := by
  simp only [parserOf, Cancellation.poll_never, h, Node.toTree_never]

theorem unlessCancelled_parse (h : read language source = some root) (token : Cancellation) :
    UnlessCancelled ((parserOf read).parse source language token) (.ok root.converted, .never) :=
  parse_parserOf h ▸ (calmedBy_parserOf read).parse source language token

theorem isSome_nodeOf? (h : language.hasGrammar) (source : List Char) :
    (nodeOf? language source).isSome := by
  cases language <;> first | rfl | cases h

/-- Whatever the source, each node that the parser makes of it counts its lines at its first byte
and at its end. -/
theorem parser_inclusiveLines (h : language.hasGrammar) (source : List Char) :
    ∃ tree, parser.parse source language .never = (.ok tree, .never) ∧
      ∀ node, tree.Has node → node.startByte < node.endByte → node.InclusiveLines source := by
  obtain ⟨root, hread⟩ := Option.isSome_iff_exists.1 (isSome_nodeOf? h source)
  exact ⟨root.converted, parse_parserOf hread, fun node hnode hne =>
    ((nodeOf?_placed hread).located node hnode).inclusiveLines hne⟩

end CodeIndex.Grammar
