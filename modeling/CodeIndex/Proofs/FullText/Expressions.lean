import CodeIndex.FullText.Query
import CodeIndex.Proofs.Text.MaximalRuns

/-!
# Full-text expressions denote their words

The expression that is made of free text is read back as the words of the text, one phrase for each
word in order.  A word is a run of characters none of which is a quote, so a phrase ends where it
was closed and what follows it is the operator or nothing.

## Main results

* `FullText.read?_of_encode?`: reading undoes encoding.
-/

namespace CodeIndex.FullText

open Text (joinWith)

theorem quote_not_mem_of_mem_queryWords {query word : List Char} (h : word ∈ queryWords query) :
    '"' ∉ word := by
  intro hquote
  have hname := Text.forall_mem_of_mem_runs h _ hquote
  revert hname
  decide

/-! ## Reading phrases -/

/-- A phrase without quotes ends at the next quote, unless that is doubled. -/
theorem readPhrase_append {word : List Char} (hword : '"' ∉ word) (phrase rest : List Char)
    (hrest : rest.head? ≠ some '"') :
    readPhrase phrase (word ++ '"' :: rest) = some (phrase.reverse ++ word, rest) := by
  induction word generalizing phrase with
  | nil =>
    cases rest with
    | nil => simp [readPhrase]
    | cons c rest =>
      have hc : c ≠ '"' := by simpa using hrest
      simp [readPhrase, hc]
  | cons c word ih =>
    obtain ⟨hc, hword⟩ : c ≠ '"' ∧ '"' ∉ word := by
      simpa [eq_comm] using hword
    rw [List.cons_append, readPhrase, ih hword]
    · simp
    · exact fun _ h _ => hc h
    · exact hc

theorem joinWith_quoted_cons (word next : List Char) (words : List (List Char)) :
    joinWith orOperator ((word :: next :: words).map quoted) =
      '"' :: (word ++ '"' :: ' ' :: 'O' :: 'R' :: ' ' ::
        joinWith orOperator ((next :: words).map quoted)) := by
  simp [joinWith, quoted, orOperator]

theorem joinWith_quoted_singleton (word : List Char) :
    joinWith orOperator ([word].map quoted) = '"' :: (word ++ ['"']) := by
  simp [joinWith, quoted]

/-- Each phrase takes one unit of fuel. -/
theorem readPhrases_joinWith (words : List (List Char)) (hne : words ≠ [])
    (hwords : ∀ word ∈ words, '"' ∉ word) (phrases : List (List Char)) (fuel : Nat)
    (hfuel : words.length ≤ fuel) :
    readPhrases fuel phrases (joinWith orOperator (words.map quoted)) =
      some (phrases.reverse ++ words) := by
  induction words generalizing phrases fuel with
  | nil => exact absurd rfl hne
  | cons word words ih =>
    obtain ⟨hword, hwords⟩ := List.forall_mem_cons.1 hwords
    obtain ⟨fuel, rfl⟩ : ∃ n, fuel = n + 1 := ⟨fuel - 1, by simp at hfuel; omega⟩
    cases words with
    | nil =>
      rw [joinWith_quoted_singleton, readPhrases, readPhrase_append hword [] [] (by simp)]
      simp
    | cons next words =>
      have hrest := ih (by simp) hwords (word :: phrases) fuel (by simpa using hfuel)
      rw [joinWith_quoted_cons, readPhrases, readPhrase_append hword [] _ (by simp)]
      simpa using hrest

theorem length_le_joinWith (words : List (List Char)) :
    words.length ≤ (joinWith orOperator (words.map quoted)).length := by
  induction words with
  | nil => simp
  | cons word words ih =>
    cases words with
    | nil =>
      rw [joinWith_quoted_singleton]
      simp
    | cons next words =>
      rw [joinWith_quoted_cons]
      simp only [List.length_cons, List.length_append] at ih ⊢
      omega

/-- An expression is read as the words that it was made of. -/
theorem read?_of_encode? {query expression : List Char} (h : encode? query = some expression) :
    read? expression = some (queryWords query) := by
  unfold encode? at h
  split at h
  · simp at h
  · next hne =>
    obtain rfl := Option.some.inj h
    have hquotes : ∀ word ∈ queryWords query, '"' ∉ word :=
      fun word hword => quote_not_mem_of_mem_queryWords hword
    have hlength := length_le_joinWith (queryWords query)
    rw [read?, readPhrases_joinWith _ hne hquotes [] _ (by omega)]
    rfl

theorem encode?_eq_none {query : List Char} : encode? query = none ↔ queryWords query = [] := by
  unfold encode?
  split
  · next hnone => simp [hnone]
  · next hne => simpa using hne

end CodeIndex.FullText
