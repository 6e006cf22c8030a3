import CodeIndex.Chunk.Structural

/-!
# Parsers that are functions

A parser may look at the cancellation token, so it is a function of more than the text.  It is
`Steady` if the token decides only whether there is a tree and not which one.  With such a parser a
text is cut in one way only.
-/

namespace CodeIndex

/-- Every tree of a text in a language is the same. -/
def TreeParser.Steady (parser : TreeParser) : Prop :=
  ∀ source language token token' tree tree', (parser.parse source language token).1 = .ok tree →
    (parser.parse source language token').1 = .ok tree' → tree = tree'

theorem TreeParser.steady_wholeFile : TreeParser.wholeFile.Steady := by
  intro source language token token' tree tree' htree htree'
  simp only [wholeFile] at htree htree'
  split at htree
  · cases htree
  · split at htree'
    · cases htree'
    · exact (Except.ok.inj htree).symm.trans (Except.ok.inj htree')

namespace Chunker

variable {chunker : Chunker} {source : List Char} {language : Language} {size : WindowSize}
  {token token' : Cancellation}

theorem treeOf_unique (h : chunker.parser.Steady) {tree tree' : Tree}
    (htree : (chunker.treeOf source language token).1 = .ok tree)
    (htree' : (chunker.treeOf source language token').1 = .ok tree') : tree = tree' := by
  unfold treeOf at htree htree'
  split at htree
  · next hsupports =>
    rw [if_pos hsupports] at htree'
    exact h _ _ _ _ _ _ htree htree'
  · next hsupports =>
    rw [if_neg hsupports] at htree'
    exact TreeParser.steady_wholeFile _ _ _ _ _ _ htree htree'

theorem spansFrom_unique {kinds : KindRegistry} {found : List Span} {waiting : List Tree}
    {spans spans' : List Span}
    (h : (spansFrom kinds language found waiting token).1 = .ok spans)
    (h' : (spansFrom kinds language found waiting token').1 = .ok spans') : spans = spans' := by
  fun_induction spansFrom kinds language found waiting token generalizing token' with
  | case1 found token =>
    rw [spansFrom] at h'
    exact (Except.ok.inj h).symm.trans (Except.ok.inj h')
  | case2 found token tree waiting token₁ hpoll => cases h
  | case3 found token tree waiting token₁ hpoll hselects ih =>
    rw [spansFrom] at h'
    split at h'
    · cases h'
    · rw [if_pos hselects] at h'
      exact ih h h'
  | case4 found token tree waiting token₁ hpoll hselects ih =>
    rw [spansFrom] at h'
    split at h'
    · cases h'
    · rw [if_neg hselects] at h'
      exact ih h h'

theorem structural_unique (h : chunker.parser.Steady) {cut cut' : List Chunk}
    (hcut : (chunker.structural source language token).1 = .ok cut)
    (hcut' : (chunker.structural source language token').1 = .ok cut') : cut = cut' := by
  unfold structural at hcut hcut'
  split at hcut
  · cases hcut
  · next tree token₁ htree =>
    split at hcut'
    · cases hcut'
    · next tree' token₁' htree' =>
      obtain rfl := treeOf_unique h (congrArg Prod.fst htree) (congrArg Prod.fst htree')
      split at hcut
      · cases hcut
      · next spans token₂ hspans =>
        split at hcut'
        · cases hcut'
        · next spans' token₂' hspans' =>
          obtain rfl := spansFrom_unique (congrArg Prod.fst hspans) (congrArg Prod.fst hspans')
          exact Except.ok.inj (hcut.symm.trans hcut')

/-- Windows stand in for structural chunks where there are none. -/
theorem chunks_ok {cut : List Chunk}
    (h : (chunker.chunks source language size token).1 = .ok cut) :
    ∃ found, (chunker.structural source language token).1 = .ok found ∧
      cut = if found = [] then Chunk.windows language size source else found := by
  unfold chunks at h
  split at h
  · next token₁ hempty =>
    refine ⟨[], congrArg Prod.fst hempty, ?_⟩
    split at h
    · cases h
    · rw [if_pos rfl]
      exact (Except.ok.inj h).symm
  · next hnonempty =>
    refine ⟨cut, h, (if_neg ?_).symm⟩
    rintro rfl
    exact hnonempty _ (Prod.ext h rfl)

/-- A text is cut in one way only. -/
theorem chunks_unique (h : chunker.parser.Steady) {cut cut' : List Chunk}
    (hcut : (chunker.chunks source language size token).1 = .ok cut)
    (hcut' : (chunker.chunks source language size token').1 = .ok cut') : cut = cut' := by
  obtain ⟨found, hfound, rfl⟩ := chunks_ok hcut
  obtain ⟨found', hfound', rfl⟩ := chunks_ok hcut'
  rw [structural_unique h hfound hfound']

end Chunker

end CodeIndex
