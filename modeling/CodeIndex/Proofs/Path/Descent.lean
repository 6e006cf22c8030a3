import CodeIndex.Proofs.Path.TextAfter

/-!
# Going down by names

From a directory one reaches a file by some names, each joined to the path so far.  The path then is
that of the directory and, behind it, the names with slashes between them.

## Main definitions

* `IsName` are the names that entries of a directory can have.
* `descend` goes down by some names, `relative` is the path that only these make.

## Main results

* `components_descend`: the steps of the path are those of the directory and the names.
* `exists_descend_eq`: the path is the directory's text with a text behind it.
* `textAfter_descend`: behind the directory and some names stand the other names.
-/

namespace CodeIndex.Path

variable {name : List Char} {names : List (List Char)} {d : List Char} {k : Nat}

/-- A name of an entry: it is a step of its own. -/
structure IsName (name : List Char) : Prop where
  ne_nil : name ≠ []
  ne_current : name ≠ ['.']
  ne_parent : name ≠ ['.', '.']
  slash_notMem : '/' ∉ name

instance (name : List Char) : Decidable (IsName name) :=
  decidable_of_iff (name ≠ [] ∧ name ≠ ['.'] ∧ name ≠ ['.', '.'] ∧ '/' ∉ name)
    ⟨fun ⟨h₁, h₂, h₃, h₄⟩ => ⟨h₁, h₂, h₃, h₄⟩, fun ⟨h₁, h₂, h₃, h₄⟩ => ⟨h₁, h₂, h₃, h₄⟩⟩

/-- Go down from a path by some names. -/
def descend (path : List Char) (names : List (List Char)) : List Char :=
  names.foldl join path

/-- Some names, each with a slash in front. -/
def slashed (names : List (List Char)) : List Char :=
  names.flatMap fun name => '/' :: name

/-- The path that only some names make. -/
def relative : List (List Char) → List Char
  | [] => []
  | name :: names => name ++ slashed names

/-! ### Names as steps -/

theorem IsName.not_isVoid (h : IsName name) : ¬isVoid name := by
  simp [isVoid, h.ne_nil, h.ne_current]

theorem IsName.stepOf?_eq (h : IsName name) : stepOf? name = some (.name name) := by
  rw [stepOf?, if_neg (not_or.2 ⟨h.ne_nil, h.ne_current⟩), if_neg h.ne_parent]

theorem IsName.not_isAbsolute (h : IsName name) : ¬isAbsolute name := by
  rw [isAbsolute, beq_iff_eq]
  exact fun hhead => h.slash_notMem (List.mem_of_mem_head? hhead)

theorem slashed_cons (name : List Char) (names : List (List Char)) :
    slashed (name :: names) = '/' :: name ++ slashed names := List.flatMap_cons

theorem slashed_eq_nil_or (names : List (List Char)) :
    slashed names = [] ∨ (slashed names).head? = some '/' := by
  cases names with
  | nil => exact .inl rfl
  | cons name names => exact .inr rfl

theorem abuts_slashed (front : List Char) (names : List (List Char)) :
    Abuts front (slashed names) := .inr ((slashed_eq_nil_or names).imp_right .inr)

theorem bodyComponents_slashed (h : ∀ name ∈ names, IsName name) :
    bodyComponents (slashed names) = names.map .name := by
  induction names with
  | nil => rfl
  | cons name names ih =>
    obtain ⟨hname, hnames⟩ := List.forall_mem_cons.1 h
    rw [slashed_cons, List.cons_append, bodyComponents_cons_slash,
      bodyComponents_append (abuts_slashed name names), bodyComponents_piece hname.slash_notMem,
      hname.stepOf?_eq, ih hnames]
    rfl

theorem bodyComponents_relative (h : ∀ name ∈ names, IsName name) :
    bodyComponents (relative names) = names.map .name := by
  rw [← bodyComponents_slashed h]
  cases names with
  | nil => rfl
  | cons name names => exact (bodyComponents_cons_slash _).symm

theorem IsName.isPlain (h : IsName name) : IsPlain name := by
  refine ⟨fun hhead => h.slash_notMem (List.mem_of_mem_head? hhead), fun body heq => ⟨?_, ?_⟩⟩
  · rintro rfl
    exact h.ne_current heq
  · intro hhead
    refine h.slash_notMem ?_
    rw [heq]
    exact List.mem_cons_of_mem _ (List.mem_of_mem_head? hhead)

theorem isPlain_relative (h : ∀ name ∈ names, IsName name) : IsPlain (relative names) := by
  cases names with
  | nil => exact isPlain_nil
  | cons name names =>
    have hname := h name List.mem_cons_self
    exact hname.isPlain.append hname.ne_nil _

/-! ### Trimming and dropping names -/

theorem IsName.trimBack_eq (h : IsName name) : trimBack name = name :=
  trimBack_piece h.slash_notMem h.not_isVoid

theorem trimBack_slashed (h : ∀ name ∈ names, IsName name) :
    trimBack (slashed names) = slashed names := by
  induction names with
  | nil => exact trimBack_nil
  | cons name names ih =>
    obtain ⟨hname, hnames⟩ := List.forall_mem_cons.1 h
    have hfirst : trimBack ('/' :: name) = '/' :: name := by
      have habuts : Abuts ['/'] name := .inr (.inr (.inl rfl))
      have happend := trimBack_append habuts
      rwa [hname.trimBack_eq, if_neg hname.ne_nil] at happend
    rw [slashed_cons, trimBack_append (abuts_slashed _ _), ih hnames]
    split
    · next hnil => rw [hnil, List.append_nil, hfirst]
    · rfl

theorem trimBack_relative (h : ∀ name ∈ names, IsName name) :
    trimBack (relative names) = relative names := by
  cases names with
  | nil => exact trimBack_nil
  | cons name names =>
    obtain ⟨hname, hnames⟩ := List.forall_mem_cons.1 h
    rw [relative, trimBack_append (abuts_slashed _ _), trimBack_slashed hnames]
    split
    · next hnil => rw [hnil, List.append_nil, hname.trimBack_eq]
    · rfl

theorem trimFront_relative (h : ∀ name ∈ names, IsName name) :
    trimFront (relative names) = relative names := by
  cases names with
  | nil => exact trimFront_nil
  | cons name names =>
    have hname := h name List.mem_cons_self
    rw [relative, trimFront_append (abuts_slashed _ _), trimFront_piece hname.slash_notMem,
      if_neg hname.not_isVoid, if_neg hname.ne_nil]

theorem trimFront_slashed (h : ∀ name ∈ names, IsName name) :
    trimFront (slashed names) = relative names := by
  rw [← trimFront_relative h]
  cases names with
  | nil => rfl
  | cons name names => exact trimFront_cons_slash _

theorem dropStep_slashed (h : ∀ name ∈ names, IsName name) :
    dropStep (slashed names) = slashed names.tail := by
  rw [dropStep, trimFront_slashed h]
  cases names with
  | nil => rfl
  | cons name names =>
    exact dropWhile_step (h name List.mem_cons_self).slash_notMem (slashed_eq_nil_or names)

theorem repeat_dropStep_slashed (h : ∀ name ∈ names, IsName name) (k : Nat) :
    Nat.repeat dropStep k (slashed names) = slashed (names.drop k) := by
  induction k with
  | zero => rfl
  | succ k ih =>
    rw [repeat_dropStep_succ, ih,
      dropStep_slashed fun name hname => h name (List.mem_of_mem_drop hname), List.tail_drop]

/-! ### Going down -/

theorem descend_eq_append_slashed (h : ∀ name ∈ names, IsName name) (hne : d ≠ [])
    (hlast : d.getLast? ≠ some '/') : descend d names = d ++ slashed names := by
  induction names generalizing d with
  | nil => exact (List.append_nil d).symm
  | cons name names ih =>
    obtain ⟨hname, hnames⟩ := List.forall_mem_cons.1 h
    have hjoin : join d name = d ++ '/' :: name := by
      rw [join, if_neg (not_or.2 ⟨hname.not_isAbsolute, hne⟩), if_neg (by rwa [beq_iff_eq])]
    have hlast' : (d ++ '/' :: name).getLast? ≠ some '/' := by
      rw [List.getLast?_append_of_ne_nil _ (List.cons_ne_nil _ _),
        List.getLast?_cons_of_ne_nil hname.ne_nil]
      exact fun hmem => hname.slash_notMem (List.mem_of_getLast? hmem)
    rw [slashed_cons, ← List.append_assoc, ← ih hnames (by simp) hlast', ← hjoin]
    rfl

/-- Behind the text of the directory stand the names with slashes between them, and one in front
unless the directory ends with one. -/
theorem exists_descend_eq (h : ∀ name ∈ names, IsName name) (d : List Char) :
    ∃ t, (t = relative names ∨ t = slashed names) ∧ descend d names = d ++ t ∧ Abuts d t ∧
      (d = [] → IsPlain t) := by
  cases names with
  | nil => exact ⟨[], .inl rfl, (List.append_nil d).symm, .inr (.inl rfl), fun _ => isPlain_nil⟩
  | cons name names =>
    obtain ⟨hname, hnames⟩ := List.forall_mem_cons.1 h
    have hlast : name.getLast? ≠ some '/' :=
      fun hmem => hname.slash_notMem (List.mem_of_getLast? hmem)
    have hstart : descend d (name :: names) = descend (join d name) names := rfl
    rw [hstart, join]
    split_ifs with hreplace hslash
    · obtain rfl := hreplace.resolve_left hname.not_isAbsolute
      exact ⟨_, .inl rfl, descend_eq_append_slashed hnames hname.ne_nil hlast, .inl rfl,
        fun _ => isPlain_relative h⟩
    · have hd : d ≠ [] := (not_or.1 hreplace).2
      refine ⟨_, .inl rfl, ?_, .inr (.inr (.inl (by rwa [beq_iff_eq] at hslash))),
        fun hnil => absurd hnil hd⟩
      rw [descend_eq_append_slashed hnames (by simp [hd])
        (by rwa [List.getLast?_append_of_ne_nil _ hname.ne_nil]), List.append_assoc]
      rfl
    · have hd : d ≠ [] := (not_or.1 hreplace).2
      refine ⟨_, .inr rfl, ?_, abuts_slashed _ _, fun hnil => absurd hnil hd⟩
      rw [descend_eq_append_slashed hnames (by simp)
        (by rwa [List.getLast?_append_of_ne_nil _ (List.cons_ne_nil _ _),
          List.getLast?_cons_of_ne_nil hname.ne_nil]), List.append_assoc]
      rfl

theorem components_descend (h : ∀ name ∈ names, IsName name) (d : List Char) :
    components (descend d names) = components d ++ names.map .name := by
  obtain ⟨t, ht, heq, habuts, hplain⟩ := exists_descend_eq h d
  rw [heq, components_append habuts hplain]
  obtain rfl | rfl := ht
  · rw [bodyComponents_relative h]
  · rw [bodyComponents_slashed h]

theorem splitStart_descend (h : ∀ name ∈ names, IsName name) (hd : d ≠ []) :
    (splitStart (descend d names)).1 = (splitStart d).1 := by
  obtain ⟨t, -, heq, habuts, -⟩ := exists_descend_eq h d
  rw [heq, splitStart_append habuts fun hnil => absurd hnil hd]

/-- Behind the directory and some names stand the other names. -/
theorem textAfter_descend (h : ∀ name ∈ names, IsName name) (d : List Char) (hk : 0 < k) :
    textAfter (descend d names) ((components d).length + k) = relative (names.drop k) := by
  obtain ⟨t, ht, heq, habuts, hplain⟩ := exists_descend_eq h d
  have hdrop : ∀ name ∈ names.drop k, IsName name :=
    fun name hname => h name (List.mem_of_mem_drop hname)
  have hfront : trimFront t = trimFront (slashed names) := by
    obtain rfl | rfl := ht
    · rw [trimFront_relative h, trimFront_slashed h]
    · rfl
  rw [heq, textAfter_append_add habuts hplain hk, trimFront_repeat_dropStep_congr hfront,
    repeat_dropStep_slashed h, trimFront_slashed hdrop, trimBack_relative hdrop]

end CodeIndex.Path
