import Mathlib.Data.List.Infix
import Mathlib.Data.List.TakeWhile
import CodeIndex.Path.Basic
import CodeIndex.Proofs.Text.Pieces

/-!
# Steps and texts of paths

A path is read as steps and kept as a text, and removing a prefix counts steps but cuts the text.
What ties the two together is that text is put behind a path only at a slash, so that no piece of
the path grows into a piece of what follows: then the steps of the two are put together as well, and
trimming or dropping steps in front does not see what stands behind.

## Main definitions

* `Abuts` says that two texts meet at a slash.
* `restAfter` is the text behind some steps.

## Main results

* `bodyComponents_append`, `trimFront_append`, `repeat_dropStep_append`: how the operations on texts
  act on two texts that meet at a slash.
* `bodyComponents_restAfter`: the text behind some steps has the other steps.
-/

namespace CodeIndex.Path

open CodeIndex.Text (splitAtEvery splitAtEvery_append splitAtEvery_of_forall pieces_induction)

variable {a b piece tail body path : List Char} {k : Nat}

/-! ### Pieces -/

/-- The step that a piece stands for. -/
def stepOf? (piece : List Char) : Option Component :=
  if piece = [] ∨ piece = ['.'] then none
  else if piece = ['.', '.'] then some .parent
  else some (.name piece)

theorem bodyComponents_eq (text : List Char) :
    bodyComponents text = (splitAtEvery isSlash text).filterMap stepOf? := rfl

@[simp] theorem bodyComponents_nil : bodyComponents [] = [] := rfl

theorem bodyComponents_slash (a b : List Char) :
    bodyComponents (a ++ '/' :: b) = bodyComponents a ++ bodyComponents b := by
  rw [bodyComponents_eq, splitAtEvery_append rfl, List.filterMap_append]
  rfl

theorem bodyComponents_cons_slash (b : List Char) :
    bodyComponents ('/' :: b) = bodyComponents b :=
  bodyComponents_slash [] b

theorem isSlash_eq_false {c : Char} (h : c ≠ '/') : isSlash c = false := beq_false_of_ne h

theorem isSlash_of_notMem (h : '/' ∉ piece) : ∀ c ∈ piece, isSlash c = false :=
  fun _ hc => isSlash_eq_false (ne_of_mem_of_not_mem hc h)

theorem bodyComponents_piece (h : '/' ∉ piece) : bodyComponents piece = (stepOf? piece).toList := by
  rw [bodyComponents_eq, splitAtEvery_of_forall (isSlash_of_notMem h), List.filterMap_cons]
  cases stepOf? piece <;> rfl

theorem stepOf?_eq_none_iff : stepOf? piece = none ↔ isVoid piece := by
  unfold stepOf? isVoid
  split
  · next hvoid => simpa using hvoid
  · next hstep => split <;> simpa using hstep

/-- A single dot is a step at the start of a path only. -/
theorem current_notMem_bodyComponents (text : List Char) : .current ∉ bodyComponents text := by
  rw [bodyComponents_eq, List.mem_filterMap]
  rintro ⟨piece, -, hstep⟩
  unfold stepOf? at hstep
  split_ifs at hstep <;> cases hstep

/-! ### Texts that meet at a slash -/

/-- No piece of the first text grows into a piece of the second. -/
def Abuts (a b : List Char) : Prop :=
  a = [] ∨ b = [] ∨ a.getLast? = some '/' ∨ b.head? = some '/'

theorem Abuts.of_cons {c : Char} (h : Abuts (c :: a) b) : Abuts a b := by
  obtain h | rfl | h | h := h
  · cases h
  · exact .inr (.inl rfl)
  · obtain rfl | hne := eq_or_ne a []
    · exact .inl rfl
    · rw [List.getLast?_cons_of_ne_nil hne] at h
      exact .inr (.inr (.inl h))
  · exact .inr (.inr (.inr h))

/-- Only the end of the first text matters. -/
theorem Abuts.of_suffix (h : Abuts a b) {a' : List Char} (hsuffix : a' <:+ a) : Abuts a' b := by
  obtain ⟨front, rfl⟩ := hsuffix
  induction front with
  | nil => exact h
  | cons c front ih => exact ih h.of_cons

theorem Abuts.append_left (h : Abuts a b) (ha : a ≠ []) (front : List Char) :
    Abuts (front ++ a) b := by
  obtain rfl | h | h | h := h
  · exact absurd rfl ha
  · exact .inr (.inl h)
  · exact .inr (.inr (.inl (by rwa [List.getLast?_append_of_ne_nil _ ha])))
  · exact .inr (.inr (.inr h))

theorem Abuts.append_right (h : Abuts a b) (hb : b ≠ []) (back : List Char) :
    Abuts a (b ++ back) := by
  obtain h | rfl | h | h := h
  · exact .inl h
  · exact absurd rfl hb
  · exact .inr (.inr (.inl h))
  · exact .inr (.inr (.inr (by rwa [List.head?_append_of_ne_nil _ hb])))

theorem Abuts.map {f : Char → Char} (hf : f '/' = '/') (h : Abuts a b) :
    Abuts (a.map f) (b.map f) := by
  obtain rfl | rfl | h | h := h
  · exact .inl rfl
  · exact .inr (.inl rfl)
  · exact .inr (.inr (.inl (by rw [List.getLast?_map, h, Option.map_some, hf])))
  · exact .inr (.inr (.inr (by rw [List.head?_map, h, Option.map_some, hf])))

theorem bodyComponents_append (h : Abuts a b) :
    bodyComponents (a ++ b) = bodyComponents a ++ bodyComponents b := by
  obtain rfl | rfl | h | h := h
  · rfl
  · simp
  · obtain ⟨front, rfl⟩ := List.getLast?_eq_some_iff.1 h
    rw [List.append_assoc, List.singleton_append, bodyComponents_slash, bodyComponents_slash,
      bodyComponents_nil, List.append_nil]
  · obtain ⟨rest, rfl⟩ := List.head?_eq_some_iff.1 h
    rw [bodyComponents_slash, bodyComponents_cons_slash]

/-! ### Trimming -/

theorem takeWhile_slash (h : '/' ∉ piece) (rest : List Char) :
    (piece ++ '/' :: rest).takeWhile (!isSlash ·) = piece := by
  rw [List.takeWhile_append_of_pos fun c hc => by simp [isSlash_of_notMem h c hc]]
  simp [isSlash]

theorem takeWhile_piece (h : '/' ∉ piece) : piece.takeWhile (!isSlash ·) = piece :=
  List.takeWhile_eq_self_iff.2 fun c hc => by simp [isSlash_of_notMem h c hc]

theorem trimFront_piece (h : '/' ∉ piece) :
    trimFront piece = if isVoid piece then [] else piece := by
  rw [trimFront]
  split
  · rw [takeWhile_piece h]
  · next hrest => simp [takeWhile_piece h] at hrest

@[simp] theorem trimFront_nil : trimFront [] = [] := trimFront_piece List.not_mem_nil

theorem trimFront_slash (h : '/' ∉ piece) (rest : List Char) :
    trimFront (piece ++ '/' :: rest) =
      if isVoid piece then trimFront rest else piece ++ '/' :: rest := by
  rw [trimFront]
  split
  · next hrest => simp [takeWhile_slash h] at hrest
  · next hrest =>
    rw [takeWhile_slash h, List.drop_left] at hrest
    rw [takeWhile_slash h, (List.cons.inj hrest).2]

theorem trimFront_cons_slash (rest : List Char) : trimFront ('/' :: rest) = trimFront rest :=
  trimFront_slash List.not_mem_nil rest

theorem bodyComponents_of_isVoid (h : '/' ∉ piece) (hvoid : isVoid piece) :
    bodyComponents piece = [] := by
  rw [bodyComponents_piece h, stepOf?_eq_none_iff.2 hvoid]
  rfl

theorem bodyComponents_ne_nil (h : '/' ∉ piece) (hvoid : ¬isVoid piece) :
    bodyComponents piece ≠ [] := by
  rw [bodyComponents_piece h]
  cases hstep : stepOf? piece with
  | none => exact absurd (stepOf?_eq_none_iff.1 hstep) hvoid
  | some step => exact List.cons_ne_nil _ _

/-- What is trimmed away is no step. -/
theorem exists_eq_append_trimFront (text : List Char) :
    ∃ front, bodyComponents front = [] ∧ text = front ++ trimFront text ∧
      Abuts front (trimFront text) := by
  induction text using pieces_induction '/' with
  | last piece h =>
    rw [trimFront_piece h]
    split
    · next hvoid =>
      exact ⟨piece, bodyComponents_of_isVoid h hvoid, (List.append_nil _).symm, .inr (.inl rfl)⟩
    · exact ⟨[], rfl, rfl, .inl rfl⟩
  | next piece rest h ih =>
    rw [trimFront_slash h]
    split
    · next hvoid =>
      obtain ⟨front, hnone, heq, habuts⟩ := ih
      refine ⟨piece ++ '/' :: front, ?_, ?_, ?_⟩
      · rw [bodyComponents_slash, bodyComponents_of_isVoid h hvoid, hnone, List.append_nil]
      · rw [List.append_assoc, List.cons_append, ← heq]
      · obtain rfl | hfront := eq_or_ne front []
        · exact .inr (.inr (.inl List.getLast?_concat))
        · have hlonger := habuts.append_left hfront (piece ++ ['/'])
          rwa [List.append_assoc, List.singleton_append] at hlonger
    · exact ⟨[], rfl, rfl, .inl rfl⟩

theorem bodyComponents_trimFront (text : List Char) :
    bodyComponents (trimFront text) = bodyComponents text := by
  obtain ⟨front, hnone, heq, habuts⟩ := exists_eq_append_trimFront text
  conv_rhs => rw [heq, bodyComponents_append habuts, hnone, List.nil_append]

theorem trimFront_suffix (text : List Char) : trimFront text <:+ text := by
  obtain ⟨front, -, heq, -⟩ := exists_eq_append_trimFront text
  exact ⟨front, heq.symm⟩

/-- A trimmed text starts with a step. -/
theorem exists_step_of_trimFront_ne_nil (h : trimFront a ≠ []) :
    ∃ piece tail, trimFront a = piece ++ tail ∧ '/' ∉ piece ∧ ¬isVoid piece ∧
      (tail = [] ∨ tail.head? = some '/') := by
  induction a using pieces_induction '/' with
  | last piece hpiece =>
    rw [trimFront_piece hpiece] at h ⊢
    split_ifs at h ⊢ with hvoid
    · exact absurd rfl h
    · exact ⟨piece, [], (List.append_nil _).symm, hpiece, hvoid, .inl rfl⟩
  | next piece rest hpiece ih =>
    rw [trimFront_slash hpiece] at h ⊢
    split_ifs at h ⊢ with hvoid
    · exact ih h
    · exact ⟨piece, '/' :: rest, rfl, hpiece, hvoid, .inr rfl⟩

theorem trimFront_eq_nil_iff : trimFront a = [] ↔ bodyComponents a = [] := by
  rw [← bodyComponents_trimFront a]
  refine ⟨fun h => by rw [h]; rfl, fun hnone => by_contra fun h => ?_⟩
  obtain ⟨piece, tail, heq, hpiece, hvoid, htail⟩ := exists_step_of_trimFront_ne_nil h
  rw [heq, bodyComponents_append (.inr (htail.imp_right .inr))] at hnone
  exact bodyComponents_ne_nil hpiece hvoid (List.append_eq_nil_iff.1 hnone).1

theorem trimFront_append (h : Abuts a b) :
    trimFront (a ++ b) = if trimFront a = [] then trimFront b else trimFront a ++ b := by
  induction a using pieces_induction '/' with
  | last piece hpiece =>
    obtain rfl | rfl | hlast | hhead := h
    · rw [trimFront_nil, if_pos rfl, List.nil_append]
    · rw [List.append_nil, List.append_nil, trimFront_nil]
      split
      · assumption
      · rfl
    · exact absurd (List.mem_of_getLast? hlast) hpiece
    · -- the slash that the second text starts with ends the piece
      obtain ⟨rest, rfl⟩ := List.head?_eq_some_iff.1 hhead
      rw [trimFront_slash hpiece, trimFront_piece hpiece]
      by_cases hvoid : isVoid piece
      · rw [if_pos hvoid, if_pos hvoid, if_pos rfl]
        exact (trimFront_cons_slash rest).symm
      · have hne : piece ≠ [] := fun hnil => hvoid (by rw [hnil]; rfl)
        rw [if_neg hvoid, if_neg hvoid, if_neg hne]
  | next piece rest hpiece ih =>
    rw [List.append_assoc, List.cons_append, trimFront_slash hpiece, trimFront_slash hpiece]
    split
    · exact ih (h.of_suffix ((List.suffix_cons _ _).trans (List.suffix_append _ _)))
    · rw [if_neg (List.append_ne_nil_of_right_ne_nil _ (List.cons_ne_nil _ _)), List.append_assoc,
        List.cons_append]

/-! ### Trimming at the end -/

theorem Abuts.reverse (h : Abuts a b) : Abuts b.reverse a.reverse := by
  obtain rfl | rfl | h | h := h
  · exact .inr (.inl rfl)
  · exact .inl rfl
  · exact .inr (.inr (.inr (by rwa [List.head?_reverse])))
  · exact .inr (.inr (.inl (by rwa [List.getLast?_reverse])))

@[simp] theorem trimBack_nil : trimBack [] = [] := by
  rw [trimBack, List.reverse_nil, trimFront_nil, List.reverse_nil]

theorem bodyComponents_reverse_eq_nil (h : bodyComponents a = []) :
    bodyComponents a.reverse = [] := by
  induction a using pieces_induction '/' with
  | last piece hpiece =>
    have hvoid : isVoid piece := by_contra fun hvoid => bodyComponents_ne_nil hpiece hvoid h
    simp only [isVoid, Bool.or_eq_true, beq_iff_eq] at hvoid
    obtain rfl | rfl := hvoid <;> exact h
  | next piece rest hpiece ih =>
    rw [bodyComponents_slash, List.append_eq_nil_iff] at h
    have hvoid : isVoid piece := by_contra fun hvoid => bodyComponents_ne_nil hpiece hvoid h.1
    simp only [isVoid, Bool.or_eq_true, beq_iff_eq] at hvoid
    rw [List.reverse_append, List.reverse_cons, List.append_assoc, List.singleton_append,
      bodyComponents_slash, ih h.2, List.nil_append]
    obtain rfl | rfl := hvoid <;> exact h.1

theorem exists_eq_trimBack_append (text : List Char) :
    ∃ back, bodyComponents back = [] ∧ text = trimBack text ++ back ∧
      Abuts (trimBack text) back := by
  obtain ⟨front, hnone, heq, habuts⟩ := exists_eq_append_trimFront text.reverse
  refine ⟨front.reverse, bodyComponents_reverse_eq_nil hnone, ?_, habuts.reverse⟩
  rw [trimBack, ← List.reverse_append, ← heq, List.reverse_reverse]

theorem bodyComponents_trimBack (text : List Char) :
    bodyComponents (trimBack text) = bodyComponents text := by
  obtain ⟨back, hnone, heq, habuts⟩ := exists_eq_trimBack_append text
  conv_rhs => rw [heq, bodyComponents_append habuts, hnone, List.append_nil]

theorem trimBack_append (h : Abuts a b) :
    trimBack (a ++ b) = if trimBack b = [] then trimBack a else a ++ trimBack b := by
  rw [trimBack, List.reverse_append, trimFront_append h.reverse, trimBack, trimBack]
  simp only [List.reverse_eq_nil_iff]
  split
  · rfl
  · rw [List.reverse_append, List.reverse_reverse]

theorem trimBack_piece (h : '/' ∉ piece) (hvoid : ¬isVoid piece) : trimBack piece = piece := by
  have hreverse : ¬isVoid piece.reverse := by
    simpa [isVoid, List.reverse_eq_iff] using hvoid
  rw [trimBack, trimFront_piece (by rwa [List.mem_reverse]), if_neg hreverse, List.reverse_reverse]

/-! ### Dropping steps -/

theorem dropWhile_step (h : '/' ∉ piece) (htail : tail = [] ∨ tail.head? = some '/') :
    (piece ++ tail).dropWhile (!isSlash ·) = tail := by
  rw [List.dropWhile_append_of_pos fun c hc => by simp [isSlash_of_notMem h c hc]]
  obtain rfl | htail := htail
  · rfl
  · obtain ⟨rest, rfl⟩ := List.head?_eq_some_iff.1 htail
    rfl

theorem bodyComponents_dropStep (text : List Char) :
    bodyComponents (dropStep text) = (bodyComponents text).tail := by
  rw [dropStep, ← bodyComponents_trimFront text]
  by_cases h : trimFront text = []
  · rw [h]
    rfl
  · obtain ⟨piece, tail, heq, hpiece, hvoid, htail⟩ := exists_step_of_trimFront_ne_nil h
    rw [heq, dropWhile_step hpiece htail, bodyComponents_append (.inr (htail.imp_right .inr)),
      bodyComponents_piece hpiece]
    cases hstep : stepOf? piece with
    | none => exact absurd (stepOf?_eq_none_iff.1 hstep) hvoid
    | some step => rfl

theorem dropStep_suffix (text : List Char) : dropStep text <:+ text :=
  (List.dropWhile_suffix _).trans (trimFront_suffix text)

theorem dropStep_append (h : Abuts a b) (hstep : bodyComponents a ≠ []) :
    dropStep (a ++ b) = dropStep a ++ b := by
  have hfront : trimFront a ≠ [] := fun hnil => hstep (trimFront_eq_nil_iff.1 hnil)
  obtain ⟨piece, tail, heq, hpiece, -, htail⟩ := exists_step_of_trimFront_ne_nil hfront
  have htail' : tail ++ b = [] ∨ (tail ++ b).head? = some '/' := by
    obtain rfl | htail := htail
    · rw [List.append_nil] at heq
      have hb := h.of_suffix (trimFront_suffix a)
      rw [heq] at hb
      obtain rfl | rfl | hlast | hhead := hb
      · exact absurd heq hfront
      · exact .inl rfl
      · exact absurd (List.mem_of_getLast? hlast) hpiece
      · exact .inr hhead
    · obtain ⟨rest, rfl⟩ := List.head?_eq_some_iff.1 htail
      exact .inr rfl
  rw [dropStep, trimFront_append h, if_neg hfront, dropStep, heq, List.append_assoc,
    dropWhile_step hpiece htail', dropWhile_step hpiece htail]

/-! ### Dropping several steps -/

theorem repeat_dropStep_succ (k : Nat) (text : List Char) :
    Nat.repeat dropStep (k + 1) text = dropStep (Nat.repeat dropStep k text) := rfl

theorem bodyComponents_repeat_dropStep (k : Nat) (text : List Char) :
    bodyComponents (Nat.repeat dropStep k text) = (bodyComponents text).drop k := by
  induction k with
  | zero => rfl
  | succ k ih => rw [repeat_dropStep_succ, bodyComponents_dropStep, ih, List.tail_drop]

theorem repeat_dropStep_suffix (k : Nat) (text : List Char) :
    Nat.repeat dropStep k text <:+ text := by
  induction k with
  | zero => exact List.suffix_rfl
  | succ k ih => exact (dropStep_suffix _).trans ih

theorem repeat_dropStep_append (h : Abuts a b) (hk : k ≤ (bodyComponents a).length) :
    Nat.repeat dropStep k (a ++ b) = Nat.repeat dropStep k a ++ b := by
  induction k with
  | zero => rfl
  | succ k ih =>
    have hstep : bodyComponents (Nat.repeat dropStep k a) ≠ [] := by
      rw [bodyComponents_repeat_dropStep]
      exact List.ne_nil_of_length_pos (by rw [List.length_drop]; omega)
    rw [repeat_dropStep_succ, ih (by omega),
      dropStep_append (h.of_suffix (repeat_dropStep_suffix k a)) hstep, repeat_dropStep_succ]

theorem repeat_dropStep_add (m k : Nat) (text : List Char) :
    Nat.repeat dropStep (m + k) text = Nat.repeat dropStep k (Nat.repeat dropStep m text) := by
  induction k with
  | zero => rfl
  | succ k ih => rw [← Nat.add_assoc, repeat_dropStep_succ, ih, repeat_dropStep_succ]

/-- Dropping steps does not see what is trimmed. -/
theorem trimFront_repeat_dropStep_congr (h : trimFront a = trimFront b) (k : Nat) :
    trimFront (Nat.repeat dropStep k a) = trimFront (Nat.repeat dropStep k b) := by
  induction k with
  | zero => exact h
  | succ k ih => rw [repeat_dropStep_succ, repeat_dropStep_succ, dropStep, ih, dropStep]

/-- Behind all its steps a text leaves nothing of itself. -/
theorem trimFront_repeat_dropStep_append (h : Abuts a b) (k : Nat) :
    trimFront (Nat.repeat dropStep ((bodyComponents a).length + k) (a ++ b)) =
      trimFront (Nat.repeat dropStep k b) := by
  rw [repeat_dropStep_add, repeat_dropStep_append h le_rfl]
  refine trimFront_repeat_dropStep_congr ?_ k
  rw [trimFront_append (h.of_suffix (repeat_dropStep_suffix _ a)), if_pos]
  rw [trimFront_eq_nil_iff, bodyComponents_repeat_dropStep, List.drop_length]

end CodeIndex.Path
