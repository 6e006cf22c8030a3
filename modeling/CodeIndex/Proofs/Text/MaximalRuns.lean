import Mathlib.Data.List.TakeWhile
import CodeIndex.Text.Words

/-!
# What the runs of a text are

`MaximalRuns p text words` says which words a text falls into without saying how they are found: a
word is not empty, its characters have the property, and the character behind it, if there is one,
does not.  The runs that are read from the end of the text are these words and no others.

## Main results

* `Text.maximalRuns_iff`: the words of a text are its runs.
* `Text.forall_mem_of_mem_runs`: the characters of a run have the property of the run.
* `Text.runs_eq_nil_iff`: a text without runs has no character with the property.
-/

namespace CodeIndex.Text

/-- The words are the maximal runs of the text, in its order. -/
inductive MaximalRuns (p : Char → Bool) : List Char → List (List Char) → Prop
  | nil : MaximalRuns p [] []
  | skip {c : Char} {text : List Char} {words : List (List Char)} (hc : p c = false)
      (hwords : MaximalRuns p text words) : MaximalRuns p (c :: text) words
  | run {word text : List Char} {words : List (List Char)} (hne : word ≠ [])
      (hword : ∀ c ∈ word, p c) (hbehind : ∀ c ∈ text.head?, p c = false)
      (hwords : MaximalRuns p text words) : MaximalRuns p (word ++ text) (word :: words)

variable {p : Char → Bool}

/-! ## Reading runs from the end -/

theorem openRuns_cons (p : Char → Bool) (c : Char) (text : List Char) :
    openRuns p (c :: text) =
      if p c then (c :: (openRuns p text).1, (openRuns p text).2)
      else ([], closeRun (openRuns p text).1 (openRuns p text).2) := rfl

theorem openRuns_append {word : List Char} (hword : ∀ c ∈ word, p c) (text : List Char) :
    openRuns p (word ++ text) = (word ++ (openRuns p text).1, (openRuns p text).2) := by
  induction word with
  | nil => rfl
  | cons c word ih =>
    obtain ⟨hc, hword⟩ := List.forall_mem_cons.1 hword
    rw [List.cons_append, openRuns_cons, if_pos hc, ih hword]
    rfl

/-- No run is open where the text does not begin with a character of one. -/
theorem openRuns_fst_eq_nil {text : List Char} (h : ∀ c ∈ text.head?, p c = false) :
    (openRuns p text).1 = [] := by
  cases text with
  | nil => rfl
  | cons c text =>
    have hc : p c = false := h c rfl
    rw [openRuns_cons, hc]
    rfl

@[simp] theorem runs_nil (p : Char → Bool) : runs p [] = [] := rfl

theorem runs_cons_of_not {c : Char} (hc : p c = false) (text : List Char) :
    runs p (c :: text) = runs p text := by
  show closeRun (openRuns p (c :: text)).1 (openRuns p (c :: text)).2 = _
  rw [openRuns_cons, hc]
  rfl

/-- A run stands in front of the runs behind it. -/
theorem runs_append_of_run {word text : List Char} (hne : word ≠ []) (hword : ∀ c ∈ word, p c)
    (hbehind : ∀ c ∈ text.head?, p c = false) : runs p (word ++ text) = word :: runs p text := by
  have hopen := openRuns_fst_eq_nil hbehind
  show closeRun (openRuns p (word ++ text)).1 (openRuns p (word ++ text)).2 =
    word :: closeRun (openRuns p text).1 (openRuns p text).2
  rw [openRuns_append hword, hopen, List.append_nil]
  simp [closeRun, hne]

/-! ## Runs and words -/

/-- The runs of a text are words that it falls into.  The induction is on the length of the text,
since a run is taken off whole. -/
theorem maximalRuns_runs (p : Char → Bool) (text : List Char) :
    MaximalRuns p text (runs p text) := by
  induction hlength : text.length using Nat.strongRecOn generalizing text with
  | _ n ih =>
    cases text with
    | nil => exact .nil
    | cons c rest =>
      cases hc : p c with
      | false =>
        rw [runs_cons_of_not hc]
        exact .skip hc (ih rest.length (by simp [← hlength]) rest rfl)
      | true =>
        obtain ⟨word, behind, hsplit, hword, hbehind⟩ : ∃ word behind,
            rest = word ++ behind ∧ (∀ c ∈ word, p c) ∧ ∀ c ∈ behind.head?, p c = false := by
          refine ⟨rest.takeWhile p, rest.dropWhile p, (List.takeWhile_append_dropWhile).symm,
            fun c h => List.mem_takeWhile_imp h, fun c h => ?_⟩
          have hnot := List.head?_dropWhile_not p rest
          rw [Option.mem_def.1 h] at hnot
          simpa using hnot
        have hrun : ∀ d ∈ c :: word, p d := List.forall_mem_cons.2 ⟨hc, hword⟩
        have hbound : behind.length < n := by
          simp only [← hlength, hsplit, List.length_cons, List.length_append]
          omega
        rw [hsplit, ← List.cons_append,
          runs_append_of_run (List.cons_ne_nil c word) hrun hbehind]
        exact .run (List.cons_ne_nil c word) hrun hbehind (ih behind.length hbound behind rfl)

/-- The words that a text falls into are its runs. -/
theorem maximalRuns_iff {text : List Char} {words : List (List Char)} :
    MaximalRuns p text words ↔ words = runs p text := by
  constructor
  · intro h
    induction h with
    | nil => rfl
    | skip hc hwords ih => rw [runs_cons_of_not hc, ih]
    | run hne hword hbehind hwords ih => rw [runs_append_of_run hne hword hbehind, ih]
  · rintro rfl
    exact maximalRuns_runs p text

/-! ## What follows -/

theorem MaximalRuns.forall_mem {text : List Char} {words : List (List Char)}
    (h : MaximalRuns p text words) : ∀ word ∈ words, ∀ c ∈ word, p c := by
  induction h with
  | nil => simp
  | skip _ _ ih => exact ih
  | run _ hword _ _ ih => exact List.forall_mem_cons.2 ⟨hword, ih⟩

/-- Runs consist of characters with their property. -/
theorem forall_mem_of_mem_runs {text word : List Char} (h : word ∈ runs p text) :
    ∀ c ∈ word, p c :=
  (maximalRuns_runs p text).forall_mem word h

theorem MaximalRuns.eq_nil_iff {text : List Char} {words : List (List Char)}
    (h : MaximalRuns p text words) : words = [] ↔ ∀ c ∈ text, p c = false := by
  induction h with
  | nil => simp
  | skip hc _ ih => simp [hc, ih]
  | @run word _ _ hne hword _ _ _ =>
    obtain ⟨c, hc⟩ := List.exists_mem_of_ne_nil word hne
    refine iff_of_false (List.cons_ne_nil _ _) fun hnone => ?_
    have hfalse := hnone c (List.mem_append_left _ hc)
    rw [hword c hc] at hfalse
    exact Bool.noConfusion hfalse

/-- A text has no run exactly if no character of it has the property. -/
theorem runs_eq_nil_iff {text : List Char} : runs p text = [] ↔ ∀ c ∈ text, p c = false :=
  (maximalRuns_runs p text).eq_nil_iff

end CodeIndex.Text
