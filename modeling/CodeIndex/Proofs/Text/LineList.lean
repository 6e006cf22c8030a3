import Mathlib.Data.List.Chain
import Mathlib.Data.List.Infix
import CodeIndex.Proofs.Text.Slices

/-!
# Lists of lines

`lines` cuts a text after each newline.  The lists that it answers with are described by
`IsLineList`: no line is empty, a newline stands at the end of a line only, and every line that
another one follows has one.  A list of this form is the list of the lines of its text, so that the
lines of a part of a file are part of the lines of the file.

## Main results

* `isLineList_lines`: the lines of a text are such a list.
* `IsLineList.lines_flatten`: such a list is found again from its text.
* `length_lines_le`: a text has no more lines than bytes.
-/

namespace CodeIndex.Text

/-- The lines are those of some text. -/
structure IsLineList (ls : List (List Char)) : Prop where
  ne_nil : ∀ line ∈ ls, line ≠ []
  /-- Nothing of a line stands behind a newline. -/
  newline_last : ∀ line ∈ ls, '\n' ∉ line.dropLast
  /-- A line that another one follows ends with a newline. -/
  terminated : ls.IsChain fun line _ => line.getLast? = some '\n'

variable {text body rest : List Char} {ls part : List (List Char)} {c : Char}

theorem consLine_newline (ls : List (List Char)) : consLine '\n' ls = ['\n'] :: ls := by
  cases ls <;> rfl

theorem consLine_of_ne {line : List Char} (h : c ≠ '\n') :
    consLine c (line :: ls) = (c :: line) :: ls := by
  simp [consLine, h]

@[simp] theorem lines_nil : lines [] = [] := rfl

theorem lines_cons (c : Char) (text : List Char) : lines (c :: text) = consLine c (lines text) :=
  rfl

theorem isLineList_nil : IsLineList [] where
  ne_nil := by simp
  newline_last := by simp
  terminated := .nil

/-- A newline in front of some lines is a line of its own. -/
theorem IsLineList.cons_newline (h : IsLineList ls) : IsLineList (['\n'] :: ls) where
  ne_nil := by simpa using h.ne_nil
  newline_last := by simpa using h.newline_last
  terminated := List.isChain_cons.2 ⟨by simp, h.terminated⟩

/-- Any other character in front of some lines belongs to the first of them. -/
theorem IsLineList.cons_character {line : List Char} (h : IsLineList (line :: ls)) (hc : c ≠ '\n') :
    IsLineList ((c :: line) :: ls) := by
  have hne : line ≠ [] := h.ne_nil line List.mem_cons_self
  have hlast : (c :: line).getLast? = line.getLast? := List.getLast?_cons_of_ne_nil hne
  refine ⟨?_, ?_, ?_⟩
  · intro other hother
    rcases List.mem_cons.1 hother with rfl | hother
    · exact List.cons_ne_nil _ _
    · exact h.ne_nil other (List.mem_cons_of_mem _ hother)
  · intro other hother
    rcases List.mem_cons.1 hother with rfl | hother
    · rw [List.dropLast_cons_of_ne_nil hne, List.mem_cons, not_or]
      exact ⟨hc.symm, h.newline_last line List.mem_cons_self⟩
    · exact h.newline_last other (List.mem_cons_of_mem _ hother)
  · obtain ⟨hfirst, hrest⟩ := List.isChain_cons.1 h.terminated
    exact List.isChain_cons.2 ⟨fun next hnext => hlast.trans (hfirst next hnext), hrest⟩

/-- The lines of a text are a list of lines. -/
theorem isLineList_lines (text : List Char) : IsLineList (lines text) := by
  induction text with
  | nil => exact isLineList_nil
  | cons c text ih =>
    rw [lines_cons]
    by_cases hc : c = '\n'
    · rw [hc, consLine_newline]
      exact ih.cons_newline
    · cases hlines : lines text with
      | nil =>
        have : consLine c [] = [[c]] := rfl
        rw [this]
        exact ⟨by simp, by simp, List.isChain_singleton _⟩
      | cons line ls =>
        rw [consLine_of_ne hc]
        exact (hlines ▸ ih).cons_character hc

/-- Lines that follow each other in a list of lines are a list of lines. -/
theorem IsLineList.segment (h : IsLineList ls) (hpart : part <:+: ls) : IsLineList part where
  ne_nil line hline := h.ne_nil line (hpart.subset hline)
  newline_last line hline := h.newline_last line (hpart.subset hline)
  terminated := by
    obtain ⟨front, back, rfl⟩ := hpart
    exact h.terminated.left_of_append.right_of_append

/-- The characters up to a newline are the first line. -/
theorem lines_append_newline (h : '\n' ∉ body) (rest : List Char) :
    lines (body ++ '\n' :: rest) = (body ++ ['\n']) :: lines rest := by
  induction body with
  | nil => rw [List.nil_append, lines_cons, consLine_newline, List.nil_append]
  | cons c body ih =>
    rw [List.mem_cons, not_or] at h
    rw [List.cons_append, lines_cons, ih h.2, consLine_of_ne (Ne.symm h.1), List.cons_append]

/-- A text with no newline before its last character is one line. -/
theorem lines_of_notMem (hne : text ≠ []) (h : '\n' ∉ text.dropLast) : lines text = [text] := by
  induction text with
  | nil => exact absurd rfl hne
  | cons c text ih =>
    cases text with
    | nil => rfl
    | cons d text =>
      rw [List.dropLast_cons_cons, List.mem_cons, not_or] at h
      rw [lines_cons, ih (List.cons_ne_nil _ _) h.2, consLine_of_ne (Ne.symm h.1)]

/-- A list of lines is the list of the lines of its text. -/
theorem IsLineList.lines_flatten (h : IsLineList ls) : lines ls.flatten = ls := by
  induction ls with
  | nil => rfl
  | cons line ls ih =>
    have hnewline := h.newline_last line List.mem_cons_self
    cases ls with
    | nil => simpa using lines_of_notMem (h.ne_nil line List.mem_cons_self) hnewline
    | cons next ls =>
      have hends : line.getLast? = some '\n' := (List.isChain_cons_cons.1 h.terminated).1
      have hline : line = line.dropLast ++ ['\n'] := by
        obtain ⟨front, hfront⟩ := List.getLast?_eq_some_iff.1 hends
        rw [hfront, List.dropLast_concat]
      have hrest := ih (h.segment (List.suffix_cons line _).isInfix)
      rw [List.flatten_cons, hline, List.append_assoc, List.singleton_append,
        lines_append_newline hnewline, hrest]

/-- The lines of a part of a file are part of the lines of the file. -/
theorem lines_flatten_part (h : part <:+: lines text) : lines part.flatten = part :=
  ((isLineList_lines text).segment h).lines_flatten

@[simp] theorem lines_eq_nil : lines text = [] ↔ text = [] := by
  constructor
  · intro h
    rw [← lines_flatten text, h, List.flatten_nil]
  · rintro rfl
    rfl

theorem length_le_byteLength (text : List Char) : text.length ≤ byteLength text := by
  induction text with
  | nil => simp
  | cons c text ih =>
    have := c.utf8Size_pos
    rw [List.length_cons, byteLength_cons]
    omega

/-- Lines that are not empty hold a character each. -/
theorem length_le_length_flatten (h : ∀ line ∈ ls, line ≠ []) : ls.length ≤ ls.flatten.length := by
  induction ls with
  | nil => simp
  | cons line ls ih =>
    have hline : 0 < line.length := List.length_pos_iff.2 (h line List.mem_cons_self)
    have hrest := ih fun other hother => h other (List.mem_cons_of_mem _ hother)
    rw [List.flatten_cons, List.length_append, List.length_cons]
    omega

/-- Each line takes at least one byte. -/
theorem length_lines_le (text : List Char) : (lines text).length ≤ byteLength text := by
  have hlines := length_le_length_flatten (isLineList_lines text).ne_nil
  rw [Text.lines_flatten] at hlines
  exact hlines.trans (length_le_byteLength text)

end CodeIndex.Text
