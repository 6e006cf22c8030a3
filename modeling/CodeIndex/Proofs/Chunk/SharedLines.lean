import Mathlib.Data.List.Nodup
import CodeIndex.Proofs.Chunk.Cover
import CodeIndex.Proofs.Grammar.Conversion

/-!
# Chunks and the lines of their nodes

Nodes that follow each other are put into one chunk if the second starts on the last line of the
first.  The last line of a node that ends with a newline is the one behind it, so such a node is put
into one chunk with a node that starts there, though they have bytes on no common line.

## Main definitions

* `LinkedByLines` says that nodes of one chunk are linked by nodes that share lines.

## Main results

* `Cover.linkedByLines_iff`: this is so if and only if no node that ends with a newline, and no
  empty node, is followed on the same line by another one.
* `parsed_lines_inclusive_iff`: what parsing guarantees of lines and of the chunks made with them.
-/

namespace CodeIndex

open Text

/-! ### Neighbours in a list -/

section Neighbours

variable {α : Type*} {r : α → α → Prop} {l run : List α} {a b : α}

theorem isChain_iff_neighbours : l.IsChain r ↔ ∀ a b, [a, b] <:+: l → r a b := by
  rw [List.isChain_iff_forall_rel_of_append_cons_cons]
  constructor
  · rintro h a b ⟨front, back, hl⟩
    exact @h a b front back (by simp [← hl])
  · rintro h a b front back rfl
    exact h a b ⟨front, back, by simp⟩

/-- Neighbours in a list without repetition are neighbours in each part of it that holds both. -/
theorem neighbours_of_part (hnodup : l.Nodup) (hpair : [a, b] <:+: l) (hrun : run <:+: l)
    (ha : a ∈ run) (hb : b ∈ run) : [a, b] <:+: run := by
  obtain ⟨front, back, rfl⟩ := hrun
  obtain ⟨early, late, rfl⟩ := List.append_of_mem ha
  obtain ⟨front', back', hl⟩ := hpair
  have hsplit : (front ++ early) ++ a :: (late ++ back) = front' ++ a :: (b :: back') := by
    simpa using hl.symm
  have hone : (a :: ((front ++ early) ++ (late ++ back))).Nodup :=
    List.nodup_middle.1 (by simpa using hnodup)
  have habsent := List.mem_append.not.1 (List.nodup_cons.1 hone).1
  obtain ⟨-, -, hnext⟩ := (List.append_cons_inj_of_notMem
    (fun h => habsent (.inl h)) (fun h => habsent (.inr h))).1 hsplit
  cases late with
  | nil =>
    -- The neighbour is behind the part, and would be in the list once more.
    obtain rfl : back = b :: back' := hnext
    exact absurd List.mem_cons_self (List.disjoint_of_nodup_append hnodup
      (List.mem_append_right front hb))
  | cons c late =>
    obtain ⟨rfl, -⟩ := List.cons.inj hnext
    exact ⟨early, late, by simp⟩

end Neighbours

/-! ### Chunks -/

section Chunks

variable {selects : String → Bool} {source : List Char} {language : Language} {tree : Tree}
  {cuts : List Cut} {a b : Place}

/-- Two nodes are in one chunk only if nodes that follow each other, each of which has bytes on a
common line with the next, lead from one to the other. -/
def LinkedByLines (source : List Char) (cuts : List Cut) : Prop :=
  ∀ cut ∈ cuts, ∀ place ∈ cut.places, ∀ place' ∈ cut.places,
    ∃ run, run <:+: cuts.flatMap Cut.places ∧
      run.IsChain (fun a b => a.node.SharesLine source b.node) ∧ place ∈ run ∧ place' ∈ run

theorem Place.LeftOf.ne (h : a.LeftOf b) : a ≠ b := by
  rintro rfl
  obtain ⟨common, i, j, below, below', haddress, haddress', hlt⟩ := h
  have hsame := List.append_cancel_left (haddress.symm.trans haddress')
  exact hlt.ne (List.cons.inj hsame).1

namespace Cover

theorem nodup (h : Cover selects source language tree cuts) :
    (cuts.flatMap Cut.places).Nodup :=
  h.inOrder.imp Place.LeftOf.ne

/-- Of two neighbours among the topmost nodes, the first ends where the second starts or before. -/
theorem neighbours (h : Cover selects source language tree cuts) (horderly : tree.Orderly source)
    (hpair : [a, b] <:+: cuts.flatMap Cut.places) :
    tree.Has a.node ∧ tree.Has b.node ∧ a.node.endByte ≤ b.node.startByte := by
  have hfound : ∀ place ∈ [a, b], tree.at? place.address = some place.node :=
    fun place hplace => ((h.topmost place).1 (hpair.subset hplace)).found
  have ha := hfound a (by simp)
  have hb := hfound b (by simp)
  have hleft : a.LeftOf b := by simpa using h.inOrder.sublist hpair.sublist
  exact ⟨.of_at? ha, .of_at? hb, horderly.endByte_le_startByte ha hb hleft⟩

/-- Nodes of one chunk are linked by nodes that share lines if and only if, wherever there is no
newline between two neighbours, both have bytes and the first does not end with a newline. -/
theorem linkedByLines_iff (h : Cover selects source language tree cuts)
    (horderly : tree.Orderly source) (hlocated : ∀ node, tree.Has node → node.Located source) :
    LinkedByLines source cuts ↔ ∀ a b : Place, [a, b] <:+: cuts.flatMap Cut.places →
      newlinesBefore b.node.startByte source = newlinesBefore a.node.endByte source →
      a.node.startByte < a.node.endByte ∧ b.node.startByte < b.node.endByte ∧
        ¬ LineEndsAt source a.node.endByte := by
  constructor
  · intro hlinked a b hpair hline
    obtain ⟨ha, hb, horder⟩ := h.neighbours horderly hpair
    have htouches : a.touches b = true :=
      decide_eq_true (((hlocated _ ha).startLine_le_endLine_iff (hlocated _ hb) horder).2 hline)
    obtain ⟨cut, hcut, hin, hin'⟩ := (h.linked a b).2
      ⟨[a, b], hpair, List.isChain_pair.2 htouches, by simp, by simp⟩
    obtain ⟨run, hrun, hchain, ha', hb'⟩ := hlinked cut hcut a hin b hin'
    have hshares := isChain_iff_neighbours.1 hchain a b
      (neighbours_of_part h.nodup hpair hrun ha' hb')
    exact (((hlocated _ ha).sharesLine_iff (hlocated _ hb) horder).1 hshares).2
  · intro hneighbours cut hcut place hplace place' hplace'
    obtain ⟨run, hrun, hchain, hmem, hmem'⟩ :=
      (h.linked place place').1 ⟨cut, hcut, hplace, hplace'⟩
    refine ⟨run, hrun, isChain_iff_neighbours.2 fun a b hpair => ?_, hmem, hmem'⟩
    obtain ⟨ha, hb, horder⟩ := h.neighbours horderly (hpair.trans hrun)
    have hline : b.node.startLine ≤ a.node.endLine :=
      of_decide_eq_true (isChain_iff_neighbours.1 hchain a b hpair)
    have hline' := ((hlocated _ ha).startLine_le_endLine_iff (hlocated _ hb) horder).1 hline
    exact ((hlocated _ ha).sharesLine_iff (hlocated _ hb) horder).2
      ⟨hline, hneighbours a b (hpair.trans hrun) hline'⟩

end Cover

/-- A file that has structural chunks is cut into them. -/
theorem Chunker.chunks_of_structural {chunker : Chunker} {token : Cancellation}
    {found : List Chunk} (h : (chunker.structural source language token).1 = .ok found)
    (hne : found ≠ []) (size : WindowSize) :
    (chunker.chunks source language size token).1 = .ok found := by
  obtain ⟨chunk, rest, rfl⟩ := List.exists_cons_of_ne_nil hne
  unfold chunks
  generalize chunker.structural source language token = answer at h
  obtain ⟨answer, token'⟩ := answer
  obtain rfl : answer = .ok (chunk :: rest) := h
  rfl

/-- **Lines of parsed files.**  What is read of a source consists of placed nodes.  Then parsing
answers with a tree, unless it is told to stop.  The lines of a node are those of its bytes if it
does not end with a newline, and include the next line if it does.  If nodes hold the nodes in them,
then whatever the chunkable kinds, two nodes of one chunk are linked by nodes that share lines,
unless a node that ends with a newline, or an empty one, is followed by another with no newline
between them. -/
theorem parsed_lines_inclusive_iff {read : Language → List Char → Option Grammar.Node}
    {root : Grammar.Node} (hgrammar : language.hasGrammar)
    (hread : read language source = some root) (hplaced : root.Placed source) :
    ∃ tree, (Grammar.parserOf read).parse source language .never = (.ok tree, .never) ∧
      (∀ token, UnlessCancelled ((Grammar.parserOf read).parse source language token)
        (.ok tree, .never)) ∧
      (∀ node, tree.Has node → node.startByte < node.endByte → node.InclusiveLines source) ∧
      (root.Nested → ∀ kinds : KindRegistry, ∃ cuts : List Cut,
        Cover (kinds.selects language) source language tree cuts ∧
        (Chunker.structural ⟨Grammar.parserOf read, kinds⟩ source language .never).1 =
          .ok (cuts.map Cut.chunk) ∧
        (cuts ≠ [] → ∀ size,
          (Chunker.chunks ⟨Grammar.parserOf read, kinds⟩ source language size .never).1 =
            .ok (cuts.map Cut.chunk)) ∧
        (LinkedByLines source cuts ↔ ∀ a b : Place, [a, b] <:+: cuts.flatMap Cut.places →
          newlinesBefore b.node.startByte source = newlinesBefore a.node.endByte source →
          a.node.startByte < a.node.endByte ∧ b.node.startByte < b.node.endByte ∧
            ¬ LineEndsAt source a.node.endByte)) := by
  have hlocated := hplaced.located
  have hparse := Grammar.parse_parserOf hread
  refine ⟨root.converted, hparse, Grammar.unlessCancelled_parse hread,
    fun node hnode hne => (hlocated node hnode).inclusiveLines hne, fun hnested kinds => ?_⟩
  have horderly : root.converted.Orderly source :=
    Tree.orderly_of_located hnested.holdsChildren hlocated
  have htree : Chunker.treeOf ⟨Grammar.parserOf read, kinds⟩ source language .never =
      (.ok root.converted, .never) :=
    (if_pos hgrammar).trans hparse
  obtain ⟨cuts, hstructural, hcover⟩ := structural_cover htree horderly
  refine ⟨cuts, hcover, hstructural, fun hne size => ?_, hcover.linkedByLines_iff horderly hlocated⟩
  exact Chunker.chunks_of_structural hstructural (by simpa using hne) size

/-- A function with a comment that goes on to the end of its line. -/
def documentedSource : List Char := "/// d\nfn a() \x7b\x7d\n".toList

/-- A node of `documentedSource` that goes from one character to another. -/
def documentedNode (kind : String) (start stop : Nat) (children : List Grammar.Node) :
    Grammar.Node :=
  { kind, children
    start := Grammar.Cursor.advance start { rest := documentedSource }
    stop := Grammar.Cursor.advance stop { rest := documentedSource } }

/-- The comment, which ends with the newline. -/
def documentedComment : Grammar.Node :=
  documentedNode "line_comment" 0 6
    [documentedNode "outer_doc_comment_marker" 2 3 [], documentedNode "doc_comment" 3 6 []]

/-- The function behind the comment. -/
def documentedFunction : Grammar.Node :=
  documentedNode "function_item" 6 15
    [{ documentedNode "identifier" 9 10 [] with role := some "name" },
      documentedNode "parameters" 10 12 [], documentedNode "block" 13 15 []]

/-- What is read of `documentedSource`. -/
def documentedRoot : Grammar.Node :=
  documentedNode "source_file" 0 16 [documentedComment, documentedFunction]

theorem documentedNode_placed {kind : String} {start stop : Nat} {children : List Grammar.Node}
    (h : Grammar.AllPlaced documentedSource children) :
    (documentedNode kind start stop children).Placed documentedSource :=
  .mk ((Grammar.Cursor.placed_start _).advance _) ((Grammar.Cursor.placed_start _).advance _) h

theorem documentedRoot_placed : documentedRoot.Placed documentedSource := by
  have hleaf : ∀ kind start stop, (documentedNode kind start stop []).Placed documentedSource :=
    fun _ _ _ => documentedNode_placed .nil
  have hcomment : documentedComment.Placed documentedSource :=
    documentedNode_placed (.cons (hleaf _ _ _) (.cons (hleaf _ _ _) .nil))
  have hfunction : documentedFunction.Placed documentedSource :=
    documentedNode_placed (.cons ((hleaf _ _ _).withRole _)
      (.cons (hleaf _ _ _) (.cons (hleaf _ _ _) .nil)))
  exact documentedNode_placed (.cons hcomment (.cons hfunction .nil))

theorem nested_of_leaf {node : Grammar.Node} (hleaf : node.children = [])
    (h : node.start.byte ≤ node.stop.byte) : node.Nested :=
  .mk h (by simp [hleaf]) (by simp [hleaf]) (by simp [hleaf])

theorem documentedRoot_nested : documentedRoot.Nested := by
  have hcomment : documentedComment.Nested := by
    refine .mk (by decide) (by decide) (by decide) (List.forall_mem_cons.2 ⟨?_, ?_⟩)
    · exact nested_of_leaf rfl (by decide)
    · exact List.forall_mem_singleton.2 (nested_of_leaf rfl (by decide))
  have hfunction : documentedFunction.Nested := by
    refine .mk (by decide) (by decide) (by decide)
      (List.forall_mem_cons.2 ⟨?_, List.forall_mem_cons.2 ⟨?_, ?_⟩⟩)
    · exact nested_of_leaf rfl (by decide)
    · exact nested_of_leaf rfl (by decide)
    · exact List.forall_mem_singleton.2 (nested_of_leaf rfl (by decide))
  exact .mk (by decide) (by decide) (by decide)
    (List.forall_mem_cons.2 ⟨hcomment, List.forall_mem_singleton.2 hfunction⟩)

/-- The comment ends with a newline, so its last line is that of the function. -/
theorem parsed_lines_inclusive_documented :
    let read : Language → List Char → Option Grammar.Node := fun _ _ => some documentedRoot
    Language.rust.hasGrammar ∧ read .rust documentedSource = some documentedRoot ∧
      documentedRoot.Placed documentedSource ∧ documentedRoot.Nested ∧
      LineEndsAt documentedSource documentedComment.stop.byte ∧
      ∃ tree, (Grammar.parserOf read).parse documentedSource .rust .never = (.ok tree, .never) ∧
        (∀ node, tree.Has node → node.startByte < node.endByte →
          node.InclusiveLines documentedSource) ∧
        ∀ kinds : KindRegistry, ∃ cuts : List Cut,
          Cover (kinds.selects .rust) documentedSource .rust tree cuts ∧
          (Chunker.structural ⟨Grammar.parserOf read, kinds⟩ documentedSource .rust .never).1 =
            .ok (cuts.map Cut.chunk) := by
  intro read
  have hread : read .rust documentedSource = some documentedRoot := rfl
  obtain ⟨tree, hparse, -, hlines, hchunks⟩ :=
    parsed_lines_inclusive_iff rfl hread documentedRoot_placed
  refine ⟨rfl, hread, documentedRoot_placed, documentedRoot_nested, ?_, tree, hparse, hlines,
    fun kinds => ?_⟩
  · exact ⟨"/// d".toList, "fn a() \x7b\x7d\n".toList, by decide, by decide⟩
  · obtain ⟨cuts, hcover, hstructural, -⟩ := hchunks documentedRoot_nested kinds
    exact ⟨cuts, hcover, hstructural⟩

end Chunks

end CodeIndex
