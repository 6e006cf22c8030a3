import CodeIndex.Proofs.Syntax.Places
import CodeIndex.Proofs.Text.Newlines
import CodeIndex.Syntax.Parser

/-!
# The lines of nodes

A node covers the bytes from its first one up to its end, which is no longer part of it.  The first
line of a node is that of its first byte, but its last line is counted at its end.  The two ways to
count agree if the last byte of the node is not a newline; if it is, the end is on the next line,
which the node has no byte on, and which may not even be a line of the source.

## Main definitions

* `Tree.Located` says that the lines of a node are counted at its first byte and at its end.
* `Tree.InclusiveLines` compares them with the lines of the bytes of the node.
* `Tree.SharesLine` says that two nodes have bytes on a common line.
* `Tree.HoldsChildren` says that the bytes of the children of a node lie in it and in order.

## Main results

* `Tree.Located.inclusiveLines`: when the last line of a node is the line of its last byte.
* `Tree.Located.sharesLine_iff`: when a node and a later one have bytes on a common line.
* `Tree.orderly_of_located`: located nodes that hold their children are laid out in order.
-/

namespace CodeIndex

open Text

variable {source : List Char} {tree node next : Tree}

/-- A node starts and ends at places of the source and counts the newlines before both. -/
structure Tree.Located (source : List Char) (node : Tree) : Prop where
  boundaries : IsBoundary source node.startByte ∧ IsBoundary source node.endByte
  startLine : node.startLine = 1 + newlinesBefore node.startByte source
  endLine : node.endLine = 1 + newlinesBefore node.endByte source

/-- The lines of a node go from the line of its first byte to that of its last byte, unless the last
byte is a newline: then they include the next line, even if the source has no such line. -/
structure Tree.InclusiveLines (source : List Char) (node : Tree) : Prop where
  startLine : node.startLine = 1 + newlinesBefore node.startByte source
  endLine_iff : node.endLine = 1 + newlinesBefore (node.endByte - 1) source ↔
    ¬ LineEndsAt source node.endByte
  endLine_of_newline : LineEndsAt source node.endByte →
    node.endLine = 2 + newlinesBefore (node.endByte - 1) source
  le_lineCount_iff : node.endLine ≤ lineCount source ↔
    ¬ (LineEndsAt source node.endByte ∧ node.endByte = byteLength source)

/-- Both nodes have a byte on some line of the source. -/
def Tree.SharesLine (source : List Char) (node next : Tree) : Prop :=
  ∃ i j, (node.startByte ≤ i ∧ i < node.endByte) ∧ (next.startByte ≤ j ∧ j < next.endByte) ∧
    newlinesBefore i source = newlinesBefore j source

namespace Text

theorem IsBoundary.le_byteLength {offset : Nat} (h : IsBoundary source offset) :
    offset ≤ byteLength source := by
  obtain ⟨before, rest, rfl, rfl⟩ := h
  rw [byteLength_append]
  exact Nat.le_add_right _ _

theorem LineEndsAt.pos {offset : Nat} (h : LineEndsAt source offset) : 0 < offset := by
  obtain ⟨before, rest, -, rfl⟩ := h
  exact Nat.succ_pos _

end Text

namespace Tree.Located

theorem inclusiveLines (h : node.Located source) (hne : node.startByte < node.endByte) :
    node.InclusiveLines source := by
  have hend := h.endLine
  have hle := h.boundaries.2.le_byteLength
  have hcount := lineCount_eq source
  have hpred := newlinesBefore_pred h.boundaries.2 (Nat.zero_lt_of_lt hne)
  refine ⟨h.startLine, ?_, ?_, ?_⟩
  · obtain ⟨hends, heq⟩ | ⟨hends, heq⟩ := hpred
    · exact iff_of_false (by omega) (not_not_intro hends)
    · exact iff_of_true (by omega) hends
  · intro hends
    obtain ⟨-, heq⟩ | ⟨hnot, -⟩ := hpred
    · omega
    · exact absurd hends hnot
  · obtain ⟨hends, heq⟩ | ⟨hends, heq⟩ := hpred
    · obtain hlast | hbefore := hle.eq_or_lt
      · rw [hlast] at heq hend
        exact iff_of_false (by omega) (not_not_intro ⟨hends, hlast⟩)
      · -- The newline is not the last byte, so the line behind it has a byte.
        have hnext : newlinesBefore node.endByte source ≤
            newlinesBefore (byteLength source - 1) source :=
          newlinesBefore_mono (Nat.le_sub_one_of_lt hbefore)
        exact iff_of_true (by omega) fun hboth => hbefore.ne hboth.2
    · have hlast : newlinesBefore (node.endByte - 1) source ≤
          newlinesBefore (byteLength source - 1) source :=
        newlinesBefore_mono (Nat.sub_le_sub_right hle 1)
      exact iff_of_true (by omega) fun hboth => hends hboth.1

/-- A node and a later one have bytes on a common line if the later one starts on the line on which
the other ends, and this is the line of the last byte of that one. -/
theorem sharesLine_iff (h : node.Located source) (hnext : next.Located source)
    (horder : node.endByte ≤ next.startByte) :
    node.SharesLine source next ↔ (next.startLine ≤ node.endLine ∧
      node.startByte < node.endByte ∧ next.startByte < next.endByte ∧
      ¬ LineEndsAt source node.endByte) := by
  have hend := h.endLine
  have hstart := hnext.startLine
  have hmono : newlinesBefore node.endByte source ≤ newlinesBefore next.startByte source :=
    newlinesBefore_mono horder
  constructor
  · rintro ⟨i, j, ⟨hi, hi'⟩, ⟨hj, hj'⟩, heq⟩
    have hbefore : newlinesBefore i source ≤ newlinesBefore (node.endByte - 1) source :=
      newlinesBefore_mono (Nat.le_sub_one_of_lt hi')
    have hbehind : newlinesBefore next.startByte source ≤ newlinesBefore j source :=
      newlinesBefore_mono hj
    refine ⟨?_, hi.trans_lt hi', hj.trans_lt hj', fun hends => ?_⟩
    · have : newlinesBefore (node.endByte - 1) source ≤ newlinesBefore node.endByte source :=
        newlinesBefore_mono (Nat.sub_le _ _)
      omega
    · obtain ⟨-, hpred⟩ | ⟨hnot, -⟩ := newlinesBefore_pred h.boundaries.2 hends.pos
      · omega
      · exact hnot hends
  · rintro ⟨hline, hne, hne', hends⟩
    obtain ⟨hyes, -⟩ | ⟨-, hpred⟩ :=
      newlinesBefore_pred h.boundaries.2 (Nat.zero_lt_of_lt hne)
    · exact absurd hyes hends
    · exact ⟨node.endByte - 1, next.startByte, ⟨by omega, by omega⟩, ⟨le_rfl, hne'⟩, by omega⟩

/-- A later node starts on the line on which another one ends, or earlier, if there is no newline
between them. -/
theorem startLine_le_endLine_iff (h : node.Located source) (hnext : next.Located source)
    (horder : node.endByte ≤ next.startByte) : next.startLine ≤ node.endLine ↔
      newlinesBefore next.startByte source = newlinesBefore node.endByte source := by
  have hmono : newlinesBefore node.endByte source ≤ newlinesBefore next.startByte source :=
    newlinesBefore_mono horder
  rw [h.endLine, hnext.startLine]
  omega

end Tree.Located

/-- The bytes of a node are in order and hold those of its children, which are in order too. -/
structure Tree.HoldsChildren (node : Tree) : Prop where
  bytes_le : node.startByte ≤ node.endByte
  inside : ∀ child ∈ node.children,
    node.startByte ≤ child.startByte ∧ child.endByte ≤ node.endByte
  inOrder : node.children.Pairwise fun a b => a.endByte ≤ b.startByte

/-- The lines of located nodes are in the order of their bytes. -/
theorem Tree.orderly_of_located (hholds : ∀ node, tree.Has node → node.HoldsChildren)
    (hlocated : ∀ node, tree.Has node → node.Located source) : tree.Orderly source where
  bytes_le node hnode := (hholds node hnode).bytes_le
  lines_le node hnode := by
    rw [(hlocated node hnode).startLine, (hlocated node hnode).endLine]
    exact Nat.add_le_add_left (newlinesBefore_mono (hholds node hnode).bytes_le) 1
  inside node hnode := (hholds node hnode).inside
  inOrder node hnode := (hholds node hnode).inOrder
  boundaries node hnode := (hlocated node hnode).boundaries
  startLine_mono node node' hnode hnode' hle := by
    rw [(hlocated node hnode).startLine, (hlocated node' hnode').startLine]
    exact Nat.add_le_add_left (newlinesBefore_mono hle) 1
  endLine_mono node node' hnode hnode' hle := by
    rw [(hlocated node hnode).endLine, (hlocated node' hnode').endLine]
    exact Nat.add_le_add_left (newlinesBefore_mono hle) 1

end CodeIndex
