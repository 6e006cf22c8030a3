import CodeIndex.Proofs.Chunk.Calm
import CodeIndex.Proofs.Chunk.Cover
import CodeIndex.Proofs.Syntax.Names

/-!
# The symbols of structural chunks

The names of a node are cut at a limit before the node is joined with others, and the names of the
joined nodes are cut at the same limit again.  The first cut takes nothing away that the second one
would leave: the symbols of a chunk are the first different names of all its nodes.  Nothing is
asked of the tree here.

## Main definitions

* `Grouped` splits the topmost nodes into the groups that become one chunk each.
* `Span.MadeOf` and `Chunk.MadeOf` say what a span and a chunk of such a group are.

## Main results

* `Span.exists_grouped`: spans are joined in such groups.
* `chunk_symbols_complete`: each chunk has the first different names of all nodes of its group.
-/

namespace CodeIndex

variable {place : Place} {places group tops : List Place} {groups : List (List Place)}

/-! ## Groups of nodes -/

/-- The greatest line that some nodes reach. -/
def lastLine (places : List Place) : Nat :=
  (places.map fun place => place.node.endLine).foldr max 0

/-- The greatest byte that some nodes reach. -/
def lastByte (places : List Place) : Nat :=
  (places.map fun place => place.node.endByte).foldr max 0

theorem foldr_max_concat (numbers : List Nat) (n : Nat) :
    (numbers ++ [n]).foldr max 0 = max (numbers.foldr max 0) n := by
  induction numbers with
  | nil => simp
  | cons m numbers ih => rw [List.cons_append, List.foldr_cons, ih, List.foldr_cons, max_assoc]

theorem lastLine_concat (places : List Place) (place : Place) :
    lastLine (places ++ [place]) = max (lastLine places) place.node.endLine := by
  rw [lastLine, List.map_append, List.map_singleton, foldr_max_concat, lastLine]

theorem lastByte_concat (places : List Place) (place : Place) :
    lastByte (places ++ [place]) = max (lastByte places) place.node.endByte := by
  rw [lastByte, List.map_append, List.map_singleton, foldr_max_concat, lastByte]

/-- Nodes that follow each other are joined in groups. -/
structure Grouped (tops : List Place) (groups : List (List Place)) : Prop where
  flatten_eq : groups.flatten = tops
  nil_notMem : [] ∉ groups
  /-- A node of a group, but for the first, starts on a line that the nodes before it reach. -/
  linked : ∀ group ∈ groups, ∀ earlier place later, group = earlier ++ place :: later →
    earlier ≠ [] → place.node.startLine ≤ lastLine earlier
  /-- The first node of a group starts on a line behind all that the group before reaches. -/
  apart : groups.IsChain fun group next =>
    ∀ place ∈ next.head?, lastLine group < place.node.startLine

theorem grouped_nil : Grouped [] [] where
  flatten_eq := rfl
  nil_notMem := List.not_mem_nil
  linked := by simp
  apart := .nil

/-- A node that starts behind the last group makes a group of its own. -/
theorem Grouped.add (h : Grouped tops groups)
    (hapart : ∀ group ∈ groups.getLast?, lastLine group < place.node.startLine) :
    Grouped (tops ++ [place]) (groups ++ [[place]]) where
  flatten_eq := by
    rw [List.flatten_append, h.flatten_eq, List.flatten_singleton]
  nil_notMem := by
    rw [List.mem_append, List.mem_singleton]
    rintro (hmem | hnil)
    · exact h.nil_notMem hmem
    · cases hnil
  linked := by
    intro group hgroup earlier next later hsplit hearlier
    rcases List.mem_append.1 hgroup with hgroup | hnew
    · exact h.linked group hgroup earlier next later hsplit hearlier
    · rw [List.mem_singleton.1 hnew] at hsplit
      have hlength := congrArg List.length hsplit
      rw [List.length_singleton, List.length_append, List.length_cons] at hlength
      exact absurd (List.eq_nil_of_length_eq_zero (by omega)) hearlier
  apart := by
    refine List.isChain_append.2 ⟨h.apart, .singleton _, ?_⟩
    intro group hgroup next hnext other hother
    obtain rfl : [place] = next := by simpa using hnext
    obtain rfl : place = other := by simpa using hother
    exact hapart group hgroup

/-- A node that starts on a line that the last group reaches joins it. -/
theorem Grouped.join (h : Grouped tops (groups ++ [group]))
    (hline : place.node.startLine ≤ lastLine group) :
    Grouped (tops ++ [place]) (groups ++ [group ++ [place]]) where
  flatten_eq := by
    rw [← h.flatten_eq]
    simp
  nil_notMem := by
    intro hmem
    rcases List.mem_append.1 hmem with hmem | hnew
    · exact h.nil_notMem (List.mem_append_left _ hmem)
    · simp at hnew
  linked := by
    intro joined hjoined earlier next later hsplit hearlier
    rcases List.mem_append.1 hjoined with hjoined | hnew
    · exact h.linked joined (List.mem_append_left _ hjoined) earlier next later hsplit hearlier
    · rw [List.mem_singleton.1 hnew] at hsplit
      have hgroup : group ∈ groups ++ [group] := List.mem_append_right _ List.mem_cons_self
      rcases List.eq_nil_or_concat later with rfl | ⟨rest, last, rfl⟩
      · obtain ⟨rfl, hplace⟩ := List.append_inj' hsplit rfl
        obtain rfl : place = next := by simpa using hplace
        exact hline
      · rw [List.concat_eq_append, ← List.cons_append, ← List.append_assoc] at hsplit
        obtain ⟨hfront, -⟩ := List.append_inj' hsplit rfl
        exact h.linked group hgroup earlier next rest hfront hearlier
  apart := by
    obtain ⟨hgroups, -, hlast⟩ := List.isChain_append.1 h.apart
    refine List.isChain_append.2 ⟨hgroups, .singleton _, ?_⟩
    intro before hbefore joined hjoined first hfirst
    obtain rfl : group ++ [place] = joined := by simpa using hjoined
    have hne : group ≠ [] := by
      rintro rfl
      exact h.nil_notMem (List.mem_append_right _ List.mem_cons_self)
    rw [List.head?_append_of_ne_nil _ hne] at hfirst
    exact hlast before hbefore group (by simp) first hfirst

/-! ## The span of a group -/

namespace Span

variable {span : Span}

/-- One more symbol is collected as one more name is. -/
theorem addSymbol_firstDistinct (names : List String) (name : String) :
    addSymbol (firstDistinct Symbol.maxSymbols names) name =
      firstDistinct Symbol.maxSymbols (names ++ [name]) := by
  rw [addSymbol, firstDistinct_concat]
  simp

/-- Symbols are added to the first different ones. -/
theorem foldl_addSymbol (names more : List String) :
    more.foldl addSymbol (firstDistinct Symbol.maxSymbols names) =
      firstDistinct Symbol.maxSymbols (names ++ more) := by
  induction more generalizing names with
  | nil => rw [List.foldl_nil, List.append_nil]
  | cons name more ih =>
    rw [List.foldl_cons, addSymbol_firstDistinct, ih, List.append_assoc, List.singleton_append]

/-- The names of the nodes at some places, in the order of the places. -/
def namesOf (places : List Place) : List String := places.flatMap fun place => place.node.names

theorem namesOf_concat (places : List Place) (place : Place) :
    namesOf (places ++ [place]) = namesOf places ++ place.node.names := by
  rw [namesOf, List.flatMap_append, List.flatMap_singleton, namesOf]

/-- A span starts as the first node of a group, reaches as far as any node of it, and has the first
different names of all. -/
structure MadeOf (span : Span) (group : List Place) : Prop where
  start : ∃ first, group.head? = some first ∧ span.startByte = first.node.startByte ∧
    span.startLine = first.node.startLine ∧ span.kind = first.node.kind
  endByte : span.endByte = lastByte group
  endLine : span.endLine = lastLine group
  symbols : span.symbols = firstDistinct Symbol.maxSymbols (namesOf group)

theorem madeOf_ofTree (place : Place) : (ofTree place.node).MadeOf [place] where
  start := ⟨place, rfl, rfl, rfl, rfl⟩
  endByte := (Nat.max_zero place.node.endByte).symm
  endLine := (Nat.max_zero place.node.endLine).symm
  symbols := by
    rw [namesOf, List.flatMap_singleton]
    exact place.node.declaredNames_eq Symbol.maxSymbols

/-- A span that is extended over a node is made of that node too. -/
theorem MadeOf.extend (h : span.MadeOf group) (place : Place) :
    (span.extend (ofTree place.node)).MadeOf (group ++ [place]) where
  start := by
    obtain ⟨first, hfirst, hspan⟩ := h.start
    refine ⟨first, ?_, hspan⟩
    rw [List.head?_append, hfirst, Option.some_or]
  endByte := by
    rw [lastByte_concat, ← h.endByte]
    rfl
  endLine := by
    rw [lastLine_concat, ← h.endLine]
    rfl
  symbols :=
    calc (place.node.declaredNames Symbol.maxSymbols).foldl addSymbol span.symbols
        = firstDistinct Symbol.maxSymbols
            (namesOf group ++ firstDistinct Symbol.maxSymbols place.node.names) := by
          rw [h.symbols, foldl_addSymbol, Tree.declaredNames_eq]
      _ = firstDistinct Symbol.maxSymbols (namesOf group ++ place.node.names) :=
          firstDistinct_append_firstDistinct _ _ _
      _ = firstDistinct Symbol.maxSymbols (namesOf (group ++ [place])) := by
          rw [namesOf_concat]

/-- Spans that are pushed one after the other are joined in groups of their nodes. -/
theorem exists_grouped_foldl (tops : List Place) :
    ∃ groups, Grouped tops groups.reverse ∧
      List.Forall₂ MadeOf ((tops.map fun place => ofTree place.node).foldl push []) groups := by
  induction tops using List.reverseRecOn with
  | nil => exact ⟨[], grouped_nil, .nil⟩
  | append_singleton tops place ih =>
    obtain ⟨groups, hgrouped, hspans⟩ := ih
    rw [List.map_append, List.map_singleton, List.foldl_append, List.foldl_cons, List.foldl_nil]
    generalize (tops.map fun place => ofTree place.node).foldl push [] = merged at hspans ⊢
    cases hspans with
    | nil => exact ⟨[[place]], hgrouped.add (by simp), .cons (madeOf_ofTree place) .nil⟩
    | @cons span group earlier before hspan hrest =>
      rw [List.reverse_cons] at hgrouped
      rw [push]
      by_cases hline : (ofTree place.node).startLine ≤ span.endLine
      · refine ⟨(group ++ [place]) :: before, ?_, ?_⟩
        · rw [List.reverse_cons]
          exact hgrouped.join (hspan.endLine ▸ hline)
        · rw [if_pos hline]
          exact .cons (hspan.extend place) hrest
      · refine ⟨[place] :: group :: before, ?_, ?_⟩
        · rw [List.reverse_cons, List.reverse_cons]
          refine hgrouped.add fun last hlast => ?_
          obtain rfl : group = last := by simpa using hlast
          rw [← hspan.endLine]
          exact Nat.lt_of_not_le hline
        · rw [if_neg hline]
          exact .cons (madeOf_ofTree place) (.cons hspan hrest)

/-- The spans of nodes are joined in groups. -/
theorem exists_grouped (tops : List Place) :
    ∃ groups, Grouped tops groups ∧
      List.Forall₂ MadeOf (mergeAll (tops.map fun place => ofTree place.node)) groups := by
  obtain ⟨groups, hgrouped, hspans⟩ := exists_grouped_foldl tops
  exact ⟨groups.reverse, hgrouped, List.rel_reverse hspans⟩

end Span

/-! ## The chunk of a group -/

/-- A chunk is the part of the source from the first node of a group to the end of the node that
reaches farthest, and has the first hundred different names of all nodes of the group. -/
structure Chunk.MadeOf (source : List Char) (chunk : Chunk) (group : List Place) : Prop where
  start : ∃ first, group.head? = some first ∧ chunk.startLine = first.node.startLine ∧
    chunk.nodeType = first.node.kind ∧
    Text.slice? source first.node.startByte (lastByte group) = some chunk.content.toList
  endLine : chunk.endLine = lastLine group
  symbols : chunk.symbols =
    ((group.flatMap fun place => place.node.nodes.filterMap Tree.name).eraseDups).take 100

namespace Chunker

variable {source : List Char} {language : Language} {span : Span} {spans : List Span}
  {chunk : Chunk} {chunks : List Chunk}

theorem madeOf_of_chunkOf (h : chunkOf source language span = .ok chunk)
    (hspan : span.MadeOf group) : chunk.MadeOf source group := by
  obtain ⟨first, hfirst, hbyte, hline, hkind⟩ := hspan.start
  unfold chunkOf at h
  split at h
  · next text htext =>
    rw [hbyte, hspan.endByte] at htext
    obtain rfl := Except.ok.inj h
    refine ⟨⟨first, hfirst, hline, hkind, ?_⟩, hspan.endLine, hspan.symbols⟩
    rw [String.toList_ofList]
    exact htext
  · cases h

/-- Chunks that are cut out for spans are made of the same nodes. -/
theorem forall₂_madeOf (hspans : List.Forall₂ Span.MadeOf spans groups)
    (h : spans.mapM (chunkOf source language) = .ok chunks) :
    List.Forall₂ (Chunk.MadeOf source) chunks groups := by
  induction hspans generalizing chunks with
  | nil =>
    obtain rfl : [] = chunks := Except.ok.inj h
    exact .nil
  | @cons span group spans groups hspan _ ih =>
    rw [List.mapM_cons] at h
    cases hchunk : chunkOf source language span with
    | error e =>
      rw [hchunk] at h
      cases h
    | ok chunk =>
      cases hrest : spans.mapM (chunkOf source language) with
      | error e =>
        rw [hchunk, hrest] at h
        cases h
      | ok rest =>
        rw [hchunk, hrest] at h
        obtain rfl : chunk :: rest = chunks := Except.ok.inj h
        exact .cons (madeOf_of_chunkOf hchunk hspan) (ih hrest)

/-- A walk that is not told to stop finds what it finds without being asked. -/
theorem spansFrom_eq_never {kinds : KindRegistry} {found : List Span} {waiting : List Tree}
    {token token' : Cancellation}
    (h : spansFrom kinds language found waiting token = (.ok spans, token')) :
    (spansFrom kinds language found waiting .never).1 = .ok spans := by
  have hcalm := unlessCancelled_spansFrom kinds language found waiting token
  rw [h] at hcalm
  generalize spansFrom kinds language found waiting .never = calm at hcalm ⊢
  cases hcalm
  rfl

end Chunker

/-- **Symbols of chunks.**  Whatever the tree of a file, its chunks are made of the topmost
chunkable nodes in the order of the source, in groups, and the symbols of a chunk are the first
hundred different names of all nodes in the trees of its group, in pre-order. -/
theorem chunk_symbols_complete {chunker : Chunker} {source : List Char} {language : Language}
    {tree : Tree} {chunks : List Chunk} {token token₁ token₂ : Cancellation}
    (htree : chunker.treeOf source language token = (.ok tree, token₁))
    (hchunks : chunker.structural source language token = (.ok chunks, token₂)) :
    ∃ (tops : List Place) (groups : List (List Place)),
      (∀ place, place ∈ tops ↔ Topmost (chunker.kinds.selects language) tree place) ∧
      tops.Pairwise Place.LeftOf ∧ Grouped tops groups ∧
      List.Forall₂ (Chunk.MadeOf source) chunks groups := by
  obtain ⟨tops, hwalk, hinOrder, hmem⟩ := @Chunker.spansFrom_places chunker.kinds language []
    [⟨[], tree⟩] (List.pairwise_singleton Place.LeftOf ⟨[], tree⟩)
  rw [List.map_singleton, List.reverse_nil, List.nil_append] at hwalk
  have htops : ∀ place, place ∈ tops ↔ Topmost (chunker.kinds.selects language) tree place := by
    intro place
    simp [hmem, TopmostBelow]
  obtain ⟨groups, hgrouped, hspans⟩ := Span.exists_grouped tops
  refine ⟨tops, groups, htops, hinOrder, hgrouped, ?_⟩
  rw [Chunker.structural, htree] at hchunks
  dsimp only at hchunks
  cases hfound : Chunker.spansFrom chunker.kinds language [] [tree] token₁ with
  | mk found token₃ =>
    rw [hfound] at hchunks
    cases found with
    | error e => cases hchunks
    | ok spans =>
      have hcalm := Chunker.spansFrom_eq_never hfound
      rw [hwalk] at hcalm
      obtain rfl := Except.ok.inj hcalm
      exact Chunker.forall₂_madeOf hspans (congrArg Prod.fst hchunks)

/-- A function with parts that declare names. -/
def namingNode (startByte endByte startLine endLine : Nat) (names : List String) : Tree :=
  ⟨"function_item", none, startByte, endByte, startLine, endLine, names.map fun name =>
    ⟨"identifier", some name, startByte, endByte, startLine, startLine, []⟩⟩

/-- Three functions, of which the second starts on the line where the first ends. -/
def namingTree : Tree :=
  ⟨"source_file", none, 0, 6, 1, 4,
    [namingNode 0 2 1 2 ["f", "x", "f"], namingNode 2 4 2 3 ["g", "x", "y"],
      namingNode 5 6 4 4 ["x"]]⟩

theorem chunk_symbols_complete_naming :
    let chunker : Chunker := ⟨.fixed ⟨namingTree, true, false, none⟩, .standard⟩
    let source := ['a', '\n', 'b', '\n', '\n', 'c']
    let chunks : List Chunk := [⟨"a\nb\n", 1, 3, .rust, "function_item", ["f", "x", "g", "y"]⟩,
      ⟨"c", 4, 4, .rust, "function_item", ["x"]⟩]
    chunker.treeOf source .rust .never = (.ok namingTree, .never) ∧
      chunker.structural source .rust .never = (.ok chunks, .never) ∧
      ∃ (tops : List Place) (groups : List (List Place)),
        (∀ place, place ∈ tops ↔ Topmost (chunker.kinds.selects .rust) namingTree place) ∧
        tops.Pairwise Place.LeftOf ∧ Grouped tops groups ∧
        List.Forall₂ (Chunk.MadeOf source) chunks groups := by
  intro chunker source chunks
  have htree : chunker.treeOf source .rust .never = (.ok namingTree, .never) := rfl
  have hchunks : chunker.structural source .rust .never = (.ok chunks, .never) := by
    decide +kernel
  exact ⟨htree, hchunks, chunk_symbols_complete htree hchunks⟩

end CodeIndex
