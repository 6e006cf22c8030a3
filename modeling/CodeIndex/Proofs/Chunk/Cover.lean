import Mathlib.Data.List.SplitBy
import Mathlib.Order.Interval.Set.Defs
import CodeIndex.Chunk.Structural
import CodeIndex.Proofs.Syntax.Places

/-!
# Structural chunks cover the topmost nodes

The walk for chunkable nodes finds the topmost ones in the order of the source, and joining the
spans that share a line splits this list into runs of consecutive nodes.  Each run is one chunk.

## Main definitions

* `Place.Touches` says that a node starts on the last line of another, or earlier.
* `Cut` is a chunk with the nodes that it is made of; `Cut.Fills` says which part of the source such
  a chunk is.
* `Cover` is a list of cuts, each of a run of touching topmost nodes, that holds every topmost node
  once and uses no line twice.

## Main results

* `Chunker.spansFrom_places`: the walk answers with the topmost nodes in order.
* `Span.joins_mergeAll`: spans are joined in runs of touching nodes.
* `structural_cover`: the structural chunks of an orderly tree are a cover.
-/

namespace CodeIndex

/-! ### The walk -/

section Walk

variable {selects : String → Bool} {kinds : KindRegistry} {language : Language} {place top : Place}

/-- The places of the children of a node. -/
def Place.below (place : Place) : List Place :=
  place.node.children.mapIdx fun i child => ⟨place.address ++ [i], child⟩

theorem Place.map_node_below : place.below.map Place.node = place.node.children := by
  exact List.ext_getElem (by simp [below]) fun i hi hi' => by simp [below]

theorem Place.pairwise_below : place.below.Pairwise Place.LeftOf := by
  rw [List.pairwise_iff_getElem]
  intro i j hi hj hlt
  exact ⟨place.address, i, j, [], [], by simp [below], by simp [below], hlt⟩

/-- A topmost place of the tree that the node of another place is the root of. -/
def TopmostBelow (selects : String → Bool) (place top : Place) : Prop :=
  ∃ address, top.address = place.address ++ address ∧ Topmost selects place.node ⟨address, top.node⟩

theorem TopmostBelow.address_prefix (h : TopmostBelow selects place top) :
    place.address <+: top.address := by
  obtain ⟨address, haddress, -⟩ := h
  exact ⟨address, haddress.symm⟩

theorem topmostBelow_iff_eq (h : selects place.node.kind) :
    TopmostBelow selects place top ↔ top = place := by
  cases top
  cases place
  simp [TopmostBelow, topmost_iff_root h]

theorem topmostBelow_iff_below (h : ¬ selects place.node.kind) :
    TopmostBelow selects place top ↔ ∃ child ∈ place.below, TopmostBelow selects child top := by
  constructor
  · rintro ⟨_, haddress, htop⟩
    obtain ⟨i, child, address, hi, rfl, hchild⟩ := (topmost_iff_child h).1 htop
    refine ⟨⟨place.address ++ [i], child⟩, ?_, address, by simp [haddress], hchild⟩
    obtain ⟨hlt, rfl⟩ := List.getElem?_eq_some_iff.1 hi
    exact List.mem_mapIdx.2 ⟨i, hlt, rfl⟩
  · rintro ⟨child, hmem, address, haddress, hchild⟩
    obtain ⟨i, hlt, rfl⟩ := List.mem_mapIdx.1 hmem
    refine ⟨i :: address, by simp [haddress], (topmost_iff_child h).2 ?_⟩
    exact ⟨i, _, address, List.getElem?_eq_getElem hlt, rfl, hchild⟩

/-- The walk answers with the topmost nodes of the waiting trees in order. -/
theorem Chunker.spansFrom_places {found : List Span} {waiting : List Place}
    (hwaiting : waiting.Pairwise Place.LeftOf) :
    ∃ tops : List Place,
      spansFrom kinds language found (waiting.map Place.node) .never =
        (.ok (found.reverse ++ tops.map fun place => .ofTree place.node), .never) ∧
      tops.Pairwise Place.LeftOf ∧
      ∀ top, top ∈ tops ↔ ∃ place ∈ waiting, TopmostBelow (kinds.selects language) place top := by
  generalize hnodes : waiting.map Place.node = nodes
  generalize htoken : Cancellation.never = token
  fun_induction spansFrom kinds language found nodes token generalizing waiting with
  | case1 found token =>
    obtain rfl := List.map_eq_nil_iff.1 hnodes
    exact ⟨[], by simp, .nil, by simp⟩
  | case2 found token tree nodes token' hpoll =>
    rw [← htoken, Cancellation.poll_never] at hpoll
    cases hpoll
  | case3 found token tree nodes token' hpoll hselects ih =>
    obtain ⟨place, rest, rfl, rfl, rfl⟩ := List.map_eq_cons_iff.1 hnodes
    obtain ⟨hleft, hrest⟩ := List.pairwise_cons.1 hwaiting
    rw [← htoken, Cancellation.poll_never] at hpoll
    obtain ⟨-, rfl⟩ := Prod.mk.inj hpoll
    obtain ⟨tops, hrun, hpairwise, hmem⟩ := ih hrest rfl rfl
    refine ⟨place :: tops, ?_, List.pairwise_cons.2 ⟨fun top htop => ?_, hpairwise⟩, fun top => ?_⟩
    · rw [hrun]
      simp [htoken]
    · obtain ⟨place', hmem', hbelow⟩ := (hmem top).1 htop
      exact (hleft place' hmem').below List.prefix_rfl hbelow.address_prefix
    · rw [List.mem_cons, hmem, List.exists_mem_cons_iff, topmostBelow_iff_eq hselects]
  | case4 found token tree nodes token' hpoll hselects ih =>
    obtain ⟨place, rest, rfl, rfl, rfl⟩ := List.map_eq_cons_iff.1 hnodes
    obtain ⟨hleft, hrest⟩ := List.pairwise_cons.1 hwaiting
    rw [← htoken, Cancellation.poll_never] at hpoll
    obtain ⟨-, rfl⟩ := Prod.mk.inj hpoll
    -- The children take the place of the node, and each is left of whatever the node is left of.
    have hchildren : (place.below ++ rest).Pairwise Place.LeftOf := by
      refine List.pairwise_append.2 ⟨Place.pairwise_below, hrest, ?_⟩
      intro child hchild other hother
      obtain ⟨i, -, rfl⟩ := List.mem_mapIdx.1 hchild
      exact (hleft other hother).below (List.prefix_append _ _) List.prefix_rfl
    obtain ⟨tops, hrun, hpairwise, hmem⟩ :=
      ih hchildren (by rw [List.map_append, Place.map_node_below]) rfl
    refine ⟨tops, htoken ▸ hrun, hpairwise, fun top => ?_⟩
    simp only [hmem, List.mem_append, or_and_right, exists_or]
    rw [List.exists_mem_cons_iff, topmostBelow_iff_below hselects]

end Walk

/-! ### Joining spans -/

section Joining

variable {source : List Char} {language : Language} {tree : Tree} {places tops : List Place}

/-- A node starts on the last line of the one before, or earlier. -/
def Place.touches (place next : Place) : Bool :=
  decide (next.node.startLine ≤ place.node.endLine)

/-- A span goes from the start of the first node of a list to the end of the last one, and is of the
kind of the first. -/
def Span.Joins (span : Span) (places : List Place) : Prop :=
  ∃ first last : Place, places.head? = some first ∧ places.getLast? = some last ∧
    span.startByte = first.node.startByte ∧ span.startLine = first.node.startLine ∧
    span.kind = first.node.kind ∧
    span.endByte = last.node.endByte ∧ span.endLine = last.node.endLine

/-- The second node ends no earlier than the first. -/
def Place.EndsBefore (place next : Place) : Prop :=
  place.node.endByte ≤ next.node.endByte ∧ place.node.endLine ≤ next.node.endLine

theorem Span.joins_ofTree (place : Place) : (ofTree place.node).Joins [place] :=
  ⟨place, place, rfl, rfl, rfl, rfl, rfl, rfl, rfl⟩

/-- A span that is extended over one more node joins that node too. -/
theorem Span.Joins.extend {span : Span} {last next : Place} {group : List Place}
    (h : span.Joins (last :: group).reverse) (hends : last.EndsBefore next) :
    (span.extend (ofTree next.node)).Joins (next :: last :: group).reverse := by
  obtain ⟨first, last', hfirst, hlast, hbyte, hline, hkind, hbyte', hline'⟩ := h
  obtain rfl : last = last' := by simpa using hlast
  refine ⟨first, next, ?_, by simp, hbyte, hline, hkind, ?_, ?_⟩
  · rw [List.reverse_cons, List.head?_append, hfirst, Option.some_or]
  · exact (congrArg (max · next.node.endByte) hbyte').trans (max_eq_right hends.1)
  · exact (congrArg (max · next.node.endLine) hline').trans (max_eq_right hends.2)

theorem Span.joins_foldl {last : Place} {group : List Place} {groups : List (List Place)}
    {span : Span} {done : List Span} (hends : (last :: tops).Pairwise Place.EndsBefore)
    (hspan : span.Joins (last :: group).reverse) (hdone : List.Forall₂ Span.Joins done groups) :
    List.Forall₂ Span.Joins
      ((tops.map fun place => ofTree place.node).foldl push (span :: done)).reverse
      (List.splitBy.loop Place.touches tops last group groups) := by
  induction tops generalizing last group groups span done with
  | nil => exact List.rel_reverse (.cons hspan hdone)
  | cons next tops ih =>
    obtain ⟨hlast, hnext⟩ := List.pairwise_cons.1 hends
    have hline : span.endLine = last.node.endLine := by
      obtain ⟨-, last', -, hlast', -, -, -, -, hline⟩ := hspan
      obtain rfl : last = last' := by simpa using hlast'
      exact hline
    simp only [List.map_cons, List.foldl_cons, List.splitBy.loop, push, hline]
    by_cases h : (ofTree next.node).startLine ≤ last.node.endLine
    · rw [if_pos h, show last.touches next = true from decide_eq_true h]
      exact ih hnext (hspan.extend (hlast next List.mem_cons_self)) hdone
    · rw [if_neg h, show last.touches next = false from decide_eq_false h]
      exact ih hnext (joins_ofTree next) (.cons hspan hdone)

/-- Spans are joined in runs of nodes each of which touches the one before. -/
theorem Span.joins_mergeAll (hends : tops.Pairwise Place.EndsBefore) :
    List.Forall₂ Span.Joins (mergeAll (tops.map fun place => ofTree place.node))
      (tops.splitBy Place.touches) := by
  cases tops with
  | nil => exact .nil
  | cons first rest => exact joins_foldl hends (joins_ofTree first) .nil

end Joining

/-! ### Runs of a list -/

section Runs

variable {α : Type*} {r : α → α → Prop} {groups : List (List α)} {run : List α}

/-- A run that is linked throughout lies in one of the groups if the groups are not linked to each
other. -/
theorem exists_infix_of_infix_flatten (hne : [] ∉ groups)
    (hapart : groups.IsChain fun a b => ∃ ha hb, ¬ r (a.getLast ha) (b.head hb))
    (hpart : run <:+: groups.flatten) (hchain : run.IsChain r) {x : α} (hx : x ∈ run) :
    ∃ group ∈ groups, run <:+: group := by
  induction groups with
  | nil => simp_all
  | cons group groups ih =>
    rw [List.flatten_cons, List.infix_append_iff_ne_nil] at hpart
    obtain hin | hin | ⟨left, right, hleft, hright, rfl, hsuffix, hbegin⟩ := hpart
    · exact ⟨group, List.mem_cons_self, hin⟩
    · obtain ⟨group', hmem, hin'⟩ := ih (fun h => hne (List.mem_cons_of_mem _ h)) hapart.tail hin
      exact ⟨group', List.mem_cons_of_mem _ hmem, hin'⟩
    · -- The run goes on from the last node of this group to the first of the next one.
      cases groups with
      | nil => exact absurd (List.prefix_nil.1 hbegin) hright
      | cons next groups =>
        obtain ⟨⟨ha, hb, hbreak⟩, -⟩ := List.isChain_cons_cons.1 hapart
        refine absurd ?_ hbreak
        have hhead : (next :: groups).flatten.head? = some (next.head hb) := by
          rw [List.flatten_cons, List.head?_append, List.head?_eq_some_head hb, Option.some_or]
        obtain ⟨y, right', rfl⟩ := List.exists_cons_of_ne_nil hright
        obtain ⟨more, hmore⟩ := hbegin
        obtain rfl : y = next.head hb := by
          rw [← hmore] at hhead
          exact Option.some.inj hhead
        obtain ⟨less, rfl⟩ := hsuffix
        refine (List.isChain_append.1 hchain).2.2 _ ?_ _ rfl
        rw [List.getLast_append_of_ne_nil _ hleft]
        exact List.getLast?_eq_some_getLast hleft

end Runs

/-! ### The cover -/

/-- A chunk and the nodes that it is made of. -/
structure Cut where
  places : List Place
  first : Place
  last : Place
  chunk : Chunk
  head?_places : places.head? = some first
  getLast?_places : places.getLast? = some last

namespace Cut

/-- The chunk is the part of the source from the first byte of the first node to the last byte of
the last one, and is of the kind of the first. -/
structure Fills (source : List Char) (language : Language) (cut : Cut) : Prop where
  content : Text.IsSlice source cut.first.node.startByte cut.last.node.endByte
    cut.chunk.content.toList
  startLine : cut.chunk.startLine = cut.first.node.startLine
  endLine : cut.chunk.endLine = cut.last.node.endLine
  nodeType : cut.chunk.nodeType = cut.first.node.kind
  language : cut.chunk.language = language

/-- The bytes and the lines of the node are among those of the chunk. -/
structure Encloses (cut : Cut) (node : Tree) : Prop where
  startByte : cut.first.node.startByte ≤ node.startByte
  endByte : node.endByte ≤ cut.last.node.endByte
  startLine : cut.chunk.startLine ≤ node.startLine
  endLine : node.endLine ≤ cut.chunk.endLine

/-- The lines of the chunk. -/
def lines (cut : Cut) : Set Nat := Set.Icc cut.chunk.startLine cut.chunk.endLine

end Cut

/-- A source is cut at the topmost selected nodes of a tree: each of them is in one chunk, and the
chunks share no line. -/
structure Cover (selects : String → Bool) (source : List Char) (language : Language) (tree : Tree)
    (cuts : List Cut) : Prop where
  /-- The chunks are made of the topmost nodes, and of no node below a selected one. -/
  topmost : ∀ place, place ∈ cuts.flatMap Cut.places ↔ Topmost selects tree place
  /-- The nodes stand in the order of the source, each once. -/
  inOrder : (cuts.flatMap Cut.places).Pairwise Place.LeftOf
  fills : ∀ cut ∈ cuts, cut.Fills source language
  /-- The bytes and lines of a topmost node are among those of exactly one chunk. -/
  enclosed : ∀ place, Topmost selects tree place → ∃! cut, cut ∈ cuts ∧ cut.Encloses place.node
  /-- Two topmost nodes are in one chunk if and only if nodes that follow each other, each of which
  touches the one before, lead from one to the other. -/
  linked : ∀ place place', (∃ cut ∈ cuts, place ∈ cut.places ∧ place' ∈ cut.places) ↔
    ∃ run, run <:+: cuts.flatMap Cut.places ∧ run.IsChain (fun a b => a.touches b) ∧
      place ∈ run ∧ place' ∈ run
  forwards : ∀ cut ∈ cuts, cut.chunk.startLine ≤ cut.chunk.endLine
  /-- Each chunk ends on a line before those of the later ones. -/
  apart : cuts.Pairwise fun cut next => cut.chunk.endLine < next.chunk.startLine
  /-- No line belongs to two chunks. -/
  disjoint : cuts.Pairwise fun cut next => ∀ line, ¬ (line ∈ cut.lines ∧ line ∈ next.lines)
  ranges : (cuts.map fun cut => (cut.chunk.startLine, cut.chunk.endLine)).Nodup

section Cover

variable {selects : String → Bool} {source : List Char} {language : Language} {tree : Tree}
  {places tops : List Place} {cuts : List Cut} {cut : Cut} {place place' : Place}

/-- The places of a list are nodes of the tree in the order of the source. -/
structure Laid (tree : Tree) (places : List Place) : Prop where
  found : ∀ place ∈ places, tree.at? place.address = some place.node
  inOrder : places.Pairwise Place.LeftOf

theorem Laid.sublist (h : Laid tree tops) (hsub : places.Sublist tops) : Laid tree places where
  found place hplace := h.found place (hsub.subset hplace)
  inOrder := h.inOrder.sublist hsub

theorem Laid.has (h : Laid tree places) (hplace : place ∈ places) : tree.Has place.node :=
  .of_at? (h.found place hplace)

namespace Tree.Orderly

variable (horderly : tree.Orderly source)

include horderly

theorem endsBefore (hplaces : Laid tree places) : places.Pairwise Place.EndsBefore := by
  refine hplaces.inOrder.imp_of_mem fun {place next} hplace hnext hleft => ?_
  have hbytes : place.node.endByte ≤ next.node.endByte :=
    (horderly.endByte_le_startByte (hplaces.found place hplace) (hplaces.found next hnext)
      hleft).trans (horderly.bytes_le _ (hplaces.has hnext))
  exact ⟨hbytes, horderly.endLine_mono _ _ (hplaces.has hplace) (hplaces.has hnext) hbytes⟩

/-- The first node starts before all others, and the last one ends behind them. -/
theorem le_of_mem (hplaces : Laid tree places) {first last : Place}
    (hfirst : places.head? = some first) (hlast : places.getLast? = some last)
    (hplace : place ∈ places) :
    (first.node.startByte ≤ place.node.startByte ∧ place.node.endByte ≤ last.node.endByte) ∧
      first.node.startLine ≤ place.node.startLine ∧ place.node.endLine ≤ last.node.endLine := by
  have hfirst' : first ∈ places := List.mem_of_head? hfirst
  have hlast' : last ∈ places := List.mem_of_getLast? hlast
  have hstart : first.node.startByte ≤ place.node.startByte := by
    obtain ⟨rest, rfl⟩ := List.head?_eq_some_iff.1 hfirst
    obtain rfl | hmem := List.mem_cons.1 hplace
    · exact le_rfl
    · exact (horderly.bytes_le _ (hplaces.has hfirst')).trans
        (horderly.endByte_le_startByte (hplaces.found _ hfirst') (hplaces.found _ hplace)
          (List.rel_of_pairwise_cons hplaces.inOrder hmem))
  have hend : place.node.endByte ≤ last.node.endByte := by
    obtain ⟨rest, rfl⟩ := List.getLast?_eq_some_iff.1 hlast
    obtain hmem | hmem := List.mem_append.1 hplace
    · exact ((List.pairwise_append.1 (horderly.endsBefore hplaces)).2.2 _ hmem _
        List.mem_cons_self).1
    · rw [List.mem_singleton.1 hmem]
  exact ⟨⟨hstart, hend⟩,
    horderly.startLine_mono _ _ (hplaces.has hfirst') (hplaces.has hplace) hstart,
    horderly.endLine_mono _ _ (hplaces.has hplace) (hplaces.has hlast') hend⟩

/-- The span of a run of nodes is a part of the source, and becomes a chunk. -/
theorem exists_cut (hplaces : Laid tree places) {span : Span} (hspan : span.Joins places) :
    ∃ cut : Cut, cut.places = places ∧ Chunker.chunkOf source language span = .ok cut.chunk ∧
      cut.Fills source language := by
  obtain ⟨first, last, hfirst, hlast, hbyte, hline, hkind, hbyte', hline'⟩ := hspan
  have hhas : tree.Has first.node := hplaces.has (List.mem_of_head? hfirst)
  have hhas' : tree.Has last.node := hplaces.has (List.mem_of_getLast? hlast)
  have hle : first.node.startByte ≤ last.node.endByte :=
    (horderly.le_of_mem hplaces hfirst hlast (List.mem_of_getLast? hlast)).1.1.trans
      (horderly.bytes_le _ hhas')
  obtain ⟨slice, hslice⟩ :=
    Text.exists_isSlice (horderly.boundaries _ hhas).1 (horderly.boundaries _ hhas').2 hle
  refine ⟨⟨places, first, last, ⟨String.ofList slice, first.node.startLine, last.node.endLine,
    language, first.node.kind, span.symbols⟩, hfirst, hlast⟩, rfl, ?_, ?_⟩
  · rw [Chunker.chunkOf, hbyte, hbyte', Text.slice?_eq_some_iff.2 hslice, hline, hline', hkind]
  · exact ⟨by simpa using hslice, rfl, rfl, rfl, rfl⟩

theorem exists_cuts {spans : List Span} {groups : List (List Place)}
    (hgroups : ∀ group ∈ groups, Laid tree group) (hspans : List.Forall₂ Span.Joins spans groups) :
    ∃ cuts : List Cut, cuts.map Cut.places = groups ∧
      spans.mapM (Chunker.chunkOf source language) = .ok (cuts.map Cut.chunk) ∧
      ∀ cut ∈ cuts, cut.Fills source language := by
  induction hspans with
  | nil => exact ⟨[], rfl, rfl, by simp⟩
  | @cons span group spans groups hspan _ ih =>
    obtain ⟨hgroup, hrest⟩ := List.forall_mem_cons.1 hgroups
    obtain ⟨cut, rfl, hchunk, hfills⟩ : ∃ cut : Cut, cut.places = group ∧
        Chunker.chunkOf source language span = .ok cut.chunk ∧ cut.Fills source language :=
      horderly.exists_cut hgroup hspan
    obtain ⟨cuts, rfl, hchunks, hall⟩ := ih hrest
    refine ⟨cut :: cuts, rfl, ?_, List.forall_mem_cons.2 ⟨hfills, hall⟩⟩
    rw [List.mapM_cons, hchunk, hchunks]
    rfl

end Tree.Orderly

/-- The nodes of the cuts are the runs of touching nodes of a list. -/
structure Splits (source : List Char) (language : Language) (tree : Tree) (tops : List Place)
    (cuts : List Cut) : Prop where
  laid : Laid tree tops
  places : cuts.map Cut.places = tops.splitBy Place.touches
  fills : ∀ cut ∈ cuts, cut.Fills source language

namespace Splits

variable (h : Splits source language tree tops cuts)

include h

theorem flatMap_places : cuts.flatMap Cut.places = tops := by
  rw [List.flatMap_def, h.places, List.flatten_splitBy]

theorem laid_places (hcut : cut ∈ cuts) : Laid tree cut.places := by
  refine h.laid.sublist ?_
  rw [← h.flatMap_places, List.flatMap_def]
  exact List.sublist_flatten_of_mem (List.mem_map_of_mem hcut)

theorem isChain_places (hcut : cut ∈ cuts) : cut.places.IsChain fun a b => a.touches b :=
  List.isChain_of_mem_splitBy (h.places ▸ List.mem_map_of_mem hcut)

/-- The last node of a cut and the first of the next one do not touch. -/
theorem isChain_breaks :
    cuts.IsChain fun cut next => ¬ next.first.node.startLine ≤ cut.last.node.endLine := by
  have hbreaks := List.isChain_getLast_head_splitBy Place.touches tops
  rw [← h.places, List.isChain_map] at hbreaks
  refine hbreaks.imp fun cut next ⟨hlast, hfirst, hapart⟩ => ?_
  have hlast' : cut.places.getLast hlast = cut.last :=
    (List.getLast_eq_iff_getLast?_eq_some hlast).2 cut.getLast?_places
  have hfirst' : next.places.head hfirst = next.first :=
    (List.head_eq_iff_head?_eq_some hfirst).2 next.head?_places
  rw [hlast', hfirst'] at hapart
  exact of_decide_eq_false hapart

theorem exists_cut_of_chain {run : List Place} (hpart : run <:+: tops)
    (hchain : run.IsChain fun a b => a.touches b) (hplace : place ∈ run) :
    ∃ cut ∈ cuts, run <:+: cut.places := by
  have hbreaks : (tops.splitBy Place.touches).IsChain fun a b =>
      ∃ ha hb, ¬ (a.getLast ha).touches (b.head hb) :=
    (List.isChain_getLast_head_splitBy Place.touches tops).imp
      fun _ _ ⟨ha, hb, hbreak⟩ => ⟨ha, hb, Bool.eq_false_iff.1 hbreak⟩
  rw [← List.flatten_splitBy Place.touches tops] at hpart
  obtain ⟨group, hgroup, hin⟩ := exists_infix_of_infix_flatten
    (List.nil_notMem_splitBy Place.touches tops) hbreaks hpart hchain hplace
  rw [← h.places] at hgroup
  obtain ⟨cut, hcut, rfl⟩ := List.mem_map.1 hgroup
  exact ⟨cut, hcut, hin⟩

theorem linked (place place' : Place) : (∃ cut ∈ cuts, place ∈ cut.places ∧ place' ∈ cut.places) ↔
    ∃ run, run <:+: tops ∧ run.IsChain (fun a b => a.touches b) ∧ place ∈ run ∧ place' ∈ run := by
  constructor
  · rintro ⟨cut, hcut, hmem, hmem'⟩
    refine ⟨cut.places, ?_, h.isChain_places hcut, hmem, hmem'⟩
    rw [← h.flatMap_places, List.flatMap_def]
    exact List.infix_of_mem_flatten (List.mem_map_of_mem hcut)
  · rintro ⟨run, hpart, hchain, hmem, hmem'⟩
    obtain ⟨cut, hcut, hin⟩ := h.exists_cut_of_chain hpart hchain hmem
    exact ⟨cut, hcut, hin.subset hmem, hin.subset hmem'⟩

variable (horderly : tree.Orderly source)

include horderly

theorem encloses (hcut : cut ∈ cuts) (hplace : place ∈ cut.places) : cut.Encloses place.node := by
  obtain ⟨⟨hbyte, hbyte'⟩, hline, hline'⟩ := horderly.le_of_mem (h.laid_places hcut)
    cut.head?_places cut.getLast?_places hplace
  have hfills := h.fills cut hcut
  exact ⟨hbyte, hbyte', hfills.startLine ▸ hline, hfills.endLine ▸ hline'⟩

theorem forwards (hcut : cut ∈ cuts) : cut.chunk.startLine ≤ cut.chunk.endLine := by
  have hfirst : cut.first ∈ cut.places := List.mem_of_head? cut.head?_places
  have hencloses := h.encloses horderly hcut hfirst
  exact hencloses.startLine.trans
    ((horderly.lines_le _ ((h.laid_places hcut).has hfirst)).trans hencloses.endLine)

/-- Each chunk ends on a line before those of the later ones. -/
theorem apart : cuts.Pairwise fun cut next => cut.chunk.endLine < next.chunk.startLine := by
  -- The relation is transitive only among chunks that do not end before they start.
  let Before (cut next : Cut) : Prop :=
    cut.chunk.endLine < next.chunk.startLine ∧ next.chunk.startLine ≤ next.chunk.endLine
  have htrans : Trans Before Before Before :=
    ⟨fun hab hbc => ⟨(hab.1.trans_le hab.2).trans hbc.1, hbc.2⟩⟩
  have hchain : cuts.IsChain Before := by
    refine h.isChain_breaks.imp_of_mem_imp fun cut next hcut hnext hbreak => ?_
    refine ⟨?_, h.forwards horderly hnext⟩
    rw [(h.fills cut hcut).endLine, (h.fills next hnext).startLine]
    exact Nat.lt_of_not_le hbreak
  exact (List.isChain_iff_pairwise.1 hchain).imp And.left

theorem disjoint :
    cuts.Pairwise fun cut next => ∀ line, ¬ (line ∈ cut.lines ∧ line ∈ next.lines) := by
  refine (h.apart horderly).imp fun {cut next} hlt line hline => ?_
  exact absurd (hline.2.1.trans hline.1.2) (Nat.not_le.2 hlt)

theorem ranges : (cuts.map fun cut => (cut.chunk.startLine, cut.chunk.endLine)).Nodup := by
  rw [List.Nodup, List.pairwise_map]
  refine (h.apart horderly).imp_of_mem fun {cut next} hcut hnext hlt heq => ?_
  have hle := h.forwards horderly hcut
  have hstart := (Prod.mk.inj heq).1
  omega

theorem enclosed (hplace : place ∈ tops) :
    ∃! cut, cut ∈ cuts ∧ cut.Encloses place.node := by
  rw [← h.flatMap_places] at hplace
  obtain ⟨cut, hcut, hmem⟩ := List.mem_flatMap.1 hplace
  have hencloses := h.encloses horderly hcut hmem
  refine ⟨cut, ⟨hcut, hencloses⟩, ?_⟩
  rintro other ⟨hother, hencloses'⟩
  by_contra hne
  -- A line of the node would be a line of both chunks.
  have hline := horderly.lines_le _ ((h.laid_places hcut).has hmem)
  have : Std.Symm fun cut next : Cut => ∀ line, ¬ (line ∈ cut.lines ∧ line ∈ next.lines) :=
    ⟨fun _ _ h line hboth => h line hboth.symm⟩
  have hdisjoint := (h.disjoint horderly).forall hother hcut hne
  exact hdisjoint place.node.startLine
    ⟨⟨hencloses'.startLine, hline.trans hencloses'.endLine⟩,
      ⟨hencloses.startLine, hline.trans hencloses.endLine⟩⟩

theorem cover (htops : ∀ place, place ∈ tops ↔ Topmost selects tree place) :
    Cover selects source language tree cuts where
  topmost place := by rw [h.flatMap_places, htops]
  inOrder := by
    rw [h.flatMap_places]
    exact h.laid.inOrder
  fills := h.fills
  enclosed place hplace := h.enclosed horderly ((htops place).2 hplace)
  linked place place' := by
    rw [h.flatMap_places]
    exact h.linked place place'
  forwards cut hcut := h.forwards horderly hcut
  apart := h.apart horderly
  disjoint := h.disjoint horderly
  ranges := h.ranges horderly

end Splits

/-- **Structural chunks.**  A file whose tree lies in it as a parser lays it out is cut, and the
chunks are a cover of the topmost nodes of the chunkable kinds. -/
theorem structural_cover {chunker : Chunker}
    (htree : chunker.treeOf source language .never = (.ok tree, .never))
    (horderly : tree.Orderly source) :
    ∃ cuts : List Cut,
      (chunker.structural source language .never).1 = .ok (cuts.map Cut.chunk) ∧
      Cover (chunker.kinds.selects language) source language tree cuts := by
  obtain ⟨tops, hrun, hpairwise, hmem⟩ := @Chunker.spansFrom_places chunker.kinds language []
    [⟨[], tree⟩] (List.pairwise_singleton Place.LeftOf ⟨[], tree⟩)
  have htops : ∀ place, place ∈ tops ↔ Topmost (chunker.kinds.selects language) tree place := by
    intro place
    simp [hmem, TopmostBelow]
  have hlaid : Laid tree tops := ⟨fun place hplace => ((htops place).1 hplace).found, hpairwise⟩
  have hgroups : ∀ group ∈ tops.splitBy Place.touches, Laid tree group := by
    intro group hgroup
    refine hlaid.sublist ?_
    conv_rhs => rw [← List.flatten_splitBy Place.touches tops]
    exact List.sublist_flatten_of_mem hgroup
  obtain ⟨cuts, hplaces, hchunks, hfills⟩ : ∃ cuts : List Cut, _ ∧
      List.mapM (Chunker.chunkOf source language) _ = _ ∧ ∀ cut ∈ cuts, cut.Fills source language :=
    horderly.exists_cuts hgroups (Span.joins_mergeAll (horderly.endsBefore hlaid))
  refine ⟨cuts, ?_, Splits.cover ⟨hlaid, hplaces, hfills⟩ horderly htops⟩
  rw [List.map_singleton, List.reverse_nil, List.nil_append] at hrun
  simp only [Chunker.structural, htree, hrun, hchunks]

/-- A method inside an implementation, three functions that share lines and one on its own line. -/
def crowdedSource : List Char :=
  ("impl A \x7b\n    fn é() \x7b\x7d\n\x7d\n" ++
    "fn c() \x7b\x7d fn d() \x7b\n\x7d fn e() \x7b\x7d\nfn f() \x7b\x7d\n").toList

/-- The node of a function. -/
def functionNode (startByte endByte startLine endLine : Nat) : Tree :=
  ⟨"function_item", none, startByte, endByte, startLine, endLine, []⟩

/-- The tree of `crowdedSource`. -/
def crowdedTree : Tree :=
  ⟨"source_file", none, 0, 67, 1, 7,
    [⟨"impl_item", some "A", 0, 25, 1, 3, [functionNode 13 23 2 2]⟩,
      functionNode 26 35 4 4, functionNode 36 46 4 5, functionNode 47 56 5 5,
      functionNode 57 66 6 6]⟩

theorem orderly_crowdedTree : crowdedTree.Orderly crowdedSource := by decide

theorem structural_cover_crowded :
    let chunker : Chunker := ⟨.fixed ⟨crowdedTree, true, false, none⟩, .standard⟩
    chunker.treeOf crowdedSource .rust .never = (.ok crowdedTree, .never) ∧
      crowdedTree.Orderly crowdedSource ∧
      ∃ cuts : List Cut,
        (chunker.structural crowdedSource .rust .never).1 = .ok (cuts.map Cut.chunk) ∧
        Cover (chunker.kinds.selects .rust) crowdedSource .rust crowdedTree cuts :=
  ⟨rfl, orderly_crowdedTree, structural_cover rfl orderly_crowdedTree⟩

end Cover

end CodeIndex
