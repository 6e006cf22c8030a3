import CodeIndex.Proofs.Text.LineList

/-!
# Newlines before an offset

The line of a byte is told by the newlines before it.  Before a boundary of a text these are the
newlines among the characters before the boundary, and before the last byte of those characters
there is one less if they end with a newline.

## Main definitions

* `LineEndsAt` says that the byte before an offset is a newline.

## Main results

* `newlinesBefore_pred`: the last byte before a boundary is on the line of the boundary, or a
  newline and on the line before.
* `lineCount_eq`: a text has as many lines as there are up to its last byte.
-/

namespace CodeIndex.Text

variable {text before rest : List Char} {offset offset' : Nat} {c : Char}

/-- The byte before the offset is a newline. -/
def LineEndsAt (text : List Char) (offset : Nat) : Prop :=
  ∃ before rest, text = before ++ '\n' :: rest ∧ byteLength before + 1 = offset

/-! ### Counting newlines -/

theorem newlinesBefore_go (seen offset : Nat) (text : List Char) :
    newlinesBefore.go seen offset text = seen + newlinesBefore offset text := by
  induction text generalizing seen offset with
  | nil => simp [newlinesBefore, newlinesBefore.go]
  | cons c text ih =>
    cases offset with
    | zero => simp [newlinesBefore, newlinesBefore.go]
    | succ offset =>
      rw [newlinesBefore, newlinesBefore.go, newlinesBefore.go, ih,
        ih (if c == '\n' then 0 + 1 else 0)]
      split <;> omega

@[simp] theorem newlinesBefore_zero : newlinesBefore 0 text = 0 := by
  cases text <;> rfl

@[simp] theorem newlinesBefore_nil : newlinesBefore offset [] = 0 := rfl

theorem newlinesBefore_cons (h : 0 < offset) : newlinesBefore offset (c :: text) =
    (if c = '\n' then 1 else 0) + newlinesBefore (offset - c.utf8Size) text := by
  obtain ⟨offset, rfl⟩ := Nat.exists_eq_succ_of_ne_zero h.ne'
  rw [newlinesBefore, newlinesBefore.go, newlinesBefore_go]
  simp

/-- Before a place further on are the newlines up to a boundary and those behind it. -/
theorem newlinesBefore_append (before rest : List Char) (offset : Nat) :
    newlinesBefore (byteLength before + offset) (before ++ rest) =
      before.count '\n' + newlinesBefore offset rest := by
  induction before with
  | nil => simp
  | cons c before ih =>
    have hpos := c.utf8Size_pos
    have hrest : c.utf8Size + byteLength before + offset - c.utf8Size =
        byteLength before + offset := by omega
    rw [List.cons_append, byteLength_cons, newlinesBefore_cons (by omega), hrest, ih,
      List.count_cons]
    simp only [beq_iff_eq]
    omega

theorem newlinesBefore_byteLength (before rest : List Char) :
    newlinesBefore (byteLength before) (before ++ rest) = before.count '\n' := by
  simpa using newlinesBefore_append before rest 0

theorem newlinesBefore_mono (h : offset ≤ offset') :
    newlinesBefore offset text ≤ newlinesBefore offset' text := by
  induction text generalizing offset offset' with
  | nil => simp
  | cons c text ih =>
    obtain rfl | hpos := Nat.eq_zero_or_pos offset
    · simp
    · rw [newlinesBefore_cons hpos, newlinesBefore_cons (hpos.trans_le h)]
      exact Nat.add_le_add_left (ih (Nat.sub_le_sub_right h _)) _

/-! ### The last byte -/

theorem byteLength_concat (before : List Char) (c : Char) :
    byteLength (before ++ [c]) = byteLength before + c.utf8Size := by
  rw [byteLength_append, byteLength_cons, byteLength_nil, Nat.add_zero]

/-- The newlines before the last byte of some characters are those among the earlier ones. -/
theorem newlinesBefore_last (before rest : List Char) (c : Char) :
    newlinesBefore (byteLength before + c.utf8Size - 1) (before ++ c :: rest) =
      before.count '\n' := by
  have hpos := c.utf8Size_pos
  rw [Nat.add_sub_assoc hpos, newlinesBefore_append]
  obtain hsize | hsize := Nat.eq_zero_or_pos (c.utf8Size - 1)
  · rw [hsize, newlinesBefore_zero, Nat.add_zero]
  · have hc : c ≠ '\n' := by
      rintro rfl
      exact absurd hsize (by decide)
    rw [newlinesBefore_cons hsize, if_neg hc, Nat.sub_eq_zero_of_le (Nat.sub_le _ _)]
    simp

/-- The characters up to a boundary are told by the bytes they take. -/
theorem append_cancel_of_byteLength {before' rest' : List Char}
    (h : before ++ rest = before' ++ rest') (hlength : byteLength before = byteLength before') :
    before = before' ∧ rest = rest' := by
  obtain ⟨more, rfl, rfl⟩ | ⟨more, rfl, rfl⟩ := List.append_eq_append_iff.1 h
  all_goals
    rw [byteLength_append] at hlength
    obtain rfl : more = [] := byteLength_eq_zero.1 (by omega)
    simp

theorem lineEndsAt_iff (before rest : List Char) (c : Char) :
    LineEndsAt (before ++ c :: rest) (byteLength before + c.utf8Size) ↔ c = '\n' := by
  constructor
  · rintro ⟨before', rest', htext, hlength⟩
    have hcut : (before ++ [c]) ++ rest = (before' ++ ['\n']) ++ rest' := by simpa using htext
    have hsame := (append_cancel_of_byteLength hcut (by
      rw [byteLength_concat, byteLength_concat, ← hlength]
      rfl)).1
    exact List.singleton_injective (List.append_inj' hsame rfl).2
  · rintro rfl
    exact ⟨before, rest, rfl, rfl⟩

/-- The last byte before a boundary is a newline and on the line before, or on the line of the
boundary. -/
theorem newlinesBefore_pred (h : IsBoundary text offset) (hpos : 0 < offset) :
    (LineEndsAt text offset ∧
        newlinesBefore offset text = newlinesBefore (offset - 1) text + 1) ∨
      (¬ LineEndsAt text offset ∧
        newlinesBefore offset text = newlinesBefore (offset - 1) text) := by
  obtain ⟨through, rest, rfl, rfl⟩ := h
  obtain rfl | ⟨before, c, rfl⟩ := List.eq_nil_or_concat' through
  · simp at hpos
  · rw [newlinesBefore_byteLength, List.append_assoc, List.singleton_append, byteLength_concat,
      newlinesBefore_last, lineEndsAt_iff]
    by_cases hc : c = '\n'
    · exact .inl ⟨hc, by simp [hc]⟩
    · exact .inr ⟨hc, by simp [hc]⟩

/-! ### The lines of a text -/

theorem length_lines_concat (before : List Char) (c : Char) :
    (lines (before ++ [c])).length = before.count '\n' + 1 := by
  induction before with
  | nil => rfl
  | cons d before ih =>
    rw [List.cons_append, lines_cons]
    by_cases hd : d = '\n'
    · rw [hd, consLine_newline, List.length_cons, ih, List.count_cons_self]
    · obtain ⟨line, ls, hlines⟩ : ∃ line ls, lines (before ++ [c]) = line :: ls :=
        List.exists_cons_of_ne_nil (by simp)
      rw [hlines] at ih ⊢
      rw [consLine_of_ne hd, List.count_cons_of_ne hd, ← ih]
      rfl

/-- A text has as many lines as there are up to its last byte. -/
theorem lineCount_eq (text : List Char) :
    lineCount text = 1 + newlinesBefore (byteLength text - 1) text := by
  obtain rfl | ⟨before, c, rfl⟩ := List.eq_nil_or_concat' text
  · rfl
  · rw [lineCount, length_lines_concat, byteLength_concat, newlinesBefore_last before [] c]
    omega

end CodeIndex.Text
