import Mathlib.Data.List.Basic
import CodeIndex.Text.Words

/-!
# Pieces between separators

A list is cut at a separator: its first piece stands in front of the first separator.  Whatever is
proved of a last piece, and of a piece with a separator and a rest behind it, holds of every list.

## Main results

* `pieces_induction` is that induction.
* `splitAtEvery_append`: a separator parts the pieces before it from those behind it.
-/

namespace CodeIndex.Text

/-- Every list is a last piece, or a piece with a separator and a rest. -/
theorem pieces_induction {α : Type*} [DecidableEq α] (separator : α) {motive : List α → Prop}
    (last : ∀ piece, separator ∉ piece → motive piece)
    (next : ∀ piece rest, separator ∉ piece → motive rest → motive (piece ++ separator :: rest))
    (l : List α) : motive l := by
  induction hlength : l.length using Nat.strongRecOn generalizing l with
  | _ n ih =>
    by_cases hmem : separator ∈ l
    · obtain ⟨piece, rest, rfl, hpiece⟩ := List.eq_append_cons_of_mem hmem
      refine next piece rest hpiece (ih rest.length ?_ rest rfl)
      rw [← hlength, List.length_append, List.length_cons]
      omega
    · exact last l hmem

variable {p : Char → Bool} {c : Char}

theorem splitAtEvery_cons (p : Char → Bool) (c : Char) (text : List Char) :
    splitAtEvery p (c :: text) =
      if p c then [] :: splitAtEvery p text
      else match splitAtEvery p text with
        | [] => [[c]]
        | piece :: rest => (c :: piece) :: rest := rfl

theorem splitAtEvery_ne_nil (p : Char → Bool) (text : List Char) : splitAtEvery p text ≠ [] := by
  cases text with
  | nil => exact List.cons_ne_nil _ _
  | cons c text =>
    rw [splitAtEvery_cons]
    split
    · exact List.cons_ne_nil _ _
    · split <;> exact List.cons_ne_nil _ _

/-- A separator parts the pieces before it from those behind it. -/
theorem splitAtEvery_append (hc : p c) (front back : List Char) :
    splitAtEvery p (front ++ c :: back) = splitAtEvery p front ++ splitAtEvery p back := by
  induction front with
  | nil => rw [List.nil_append, splitAtEvery_cons, if_pos hc]; rfl
  | cons d front ih =>
    obtain ⟨piece, pieces, hpieces⟩ := List.exists_cons_of_ne_nil (splitAtEvery_ne_nil p front)
    rw [List.cons_append, splitAtEvery_cons, ih, splitAtEvery_cons, hpieces]
    split <;> rfl

theorem splitAtEvery_of_forall {text : List Char} (h : ∀ c ∈ text, p c = false) :
    splitAtEvery p text = [text] := by
  induction text with
  | nil => rfl
  | cons c text ih =>
    obtain ⟨hc, htext⟩ := List.forall_mem_cons.1 h
    rw [splitAtEvery_cons, ih htext, hc]
    rfl

end CodeIndex.Text
