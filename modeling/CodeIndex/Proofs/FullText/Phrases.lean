import Mathlib.Data.List.Infix
import CodeIndex.FullText.Index

/-!
# Phrases in rows

A row holds a phrase if the tokens of the phrase stand one after the other in one of its columns;
counting the places of the phrase comes to the same.

## Main results

* `FullText.occurrencesIn_pos`: a counted phrase is a run of tokens of the column.
* `FullText.Entry.holds_iff`: the columns of a row that holds a phrase.
* `FullText.Index.rows_search`: the rows that a search lists, in the order of the index.
-/

namespace CodeIndex.FullText

theorem countPhrase_pos {phrase : List Token} (hphrase : phrase ≠ []) (seen : Nat)
    (column : List Token) :
    0 < countPhrase phrase seen column ↔ 0 < seen ∨ phrase <:+: column := by
  induction column generalizing seen with
  | nil => simp [countPhrase, hphrase]
  | cons token rest ih =>
    rw [countPhrase, ih, List.infix_cons_iff]
    by_cases hstarts : phrase.isPrefixOf (token :: rest)
    · simp [hstarts, List.isPrefixOf_iff_prefix.1 hstarts]
    · have hnot : ¬ phrase <+: token :: rest := fun h => hstarts (List.isPrefixOf_iff_prefix.2 h)
      simp [hstarts, hnot]

/-- A phrase is counted where its tokens stand one after the other. -/
theorem occurrencesIn_pos (phrase column : List Token) :
    0 < Entry.occurrencesIn phrase column ↔ phrase ≠ [] ∧ phrase <:+: column := by
  unfold Entry.occurrencesIn
  cases phrase with
  | nil => simp
  | cons token phrase => simp [countPhrase_pos]

/-- A phrase stands in one of the columns as a run of tokens. -/
def Columns.Has (columns : Columns) (phrase : List Token) : Prop :=
  phrase <:+: columns.path ∨ phrase <:+: columns.symbols ∨ phrase <:+: columns.content

theorem Entry.holds_iff (entry : Entry) (phrase : List Token) :
    entry.holds phrase = true ↔ phrase ≠ [] ∧ entry.columns.Has phrase := by
  simp only [Entry.holds, Bool.or_eq_true, decide_eq_true_eq, occurrencesIn_pos, Columns.Has]
  tauto

/-- A search lists the rows that hold one of the phrases. -/
theorem Index.rows_search (index : Index) (phrases : List (List Token)) :
    (index.search phrases).map Prod.fst =
      (index.entries.filter fun entry => phrases.any entry.holds).map (·.row) := by
  simp [Index.search, Function.comp_def]

end CodeIndex.FullText
