import Mathlib.Data.List.Lex
import Mathlib.Data.Prod.Lex
import Mathlib.Data.String.Basic
import CodeIndex.Files.Sources

/-!
# The order of paths

Paths are sorted step by step, steps of different kinds by their rank and names as texts.  This is
the lexicographic order on keys for the steps, and as different steps have different keys it is a
linear order of sequences of steps.  So in a sorted list the paths that have the same steps stand
side by side, and dropping repetitions leaves one of them.

## Main definitions

* `Component.key` is the key of a step, and `stepKeys` are those of a path.

## Main results

* `notAfter_iff`: the order is that of the keys.
* `Files.pairwise_dropRepeats`: without its repetitions a sorted list is sorted strictly.
* `Files.pairwise_sourcesAt`: the files that some arguments stand for have different steps.
-/

namespace CodeIndex

namespace Path

/-- What a step is compared by. -/
def Component.key (step : Component) : ℕ ×ₗ List Char :=
  toLex (step.rank, match step with
    | .name text => text
    | _ => [])

theorem Component.key_name_lt {a b : List Char} : key (.name a) < key (.name b) ↔ a < b := by
  simp [key, Prod.Lex.toLex_lt_toLex, rank]

theorem Component.key_lt_iff {a b : Component} (h : a.rank ≠ b.rank) :
    a.key < b.key ↔ a.rank < b.rank :=
  Prod.Lex.toLex_lt_toLex.trans (or_iff_left fun heq => h heq.1)

theorem Component.key_injective : Function.Injective key := by
  intro a b h
  have hpair := toLex.injective h
  cases a <;> cases b <;> simp_all [rank]

/-- Only names need more than their rank. -/
theorem Component.eq_of_rank_eq {a b : Component} (h : a.rank = b.rank)
    (hname : ∀ x y, a = .name x → b = .name y → False) : a = b := by
  cases a <;> cases b <;> simp_all [rank]

/-- What a path is compared by. -/
def stepKeys (path : List Char) : List (ℕ ×ₗ List Char) := (components path).map Component.key

theorem stepKeys_inj {p q : List Char} : stepKeys p = stepKeys q ↔ components p = components q :=
  (List.map_injective_iff.2 Component.key_injective).eq_iff

section Lexicographic

variable {α : Type*} [LinearOrder α] {a b : α}

theorem cons_le_cons_iff_le (a : α) (l l' : List α) : a :: l ≤ a :: l' ↔ l ≤ l' := by
  rw [← not_lt, ← not_lt, List.cons_lt_cons_iff]
  simp

/-- Different first elements decide. -/
theorem cons_le_cons_iff_lt (h : a ≠ b) (l l' : List α) : a :: l ≤ b :: l' ↔ a < b := by
  rw [← not_lt, List.cons_lt_cons_iff, not_or, not_lt, h.le_iff_lt]
  exact and_iff_left fun heq => h heq.1.symm

end Lexicographic

theorem notAfter_iff (steps steps' : List Component) :
    notAfter steps steps' ↔ steps.map Component.key ≤ steps'.map Component.key := by
  fun_induction notAfter steps steps' with
  | case1 steps => exact iff_of_true rfl (not_lt.1 (List.not_lt_nil _))
  | case2 => simp
  | case3 a rest rest' ih =>
    rw [ih, List.map_cons, List.map_cons, cons_le_cons_iff_le]
  | case4 a rest b rest' hne =>
    have hkey : Component.key (.name a) ≠ Component.key (.name b) :=
      Component.key_injective.ne fun heq => hne (Component.name.inj heq)
    rw [List.map_cons, List.map_cons, cons_le_cons_iff_lt hkey, Component.key_name_lt,
      decide_eq_true_iff, String.lt_iff_toList_lt, String.toList_ofList, String.toList_ofList]
  | case5 a rest b rest' hname hrank ih =>
    rw [ih, Component.eq_of_rank_eq hrank hname, List.map_cons, List.map_cons, cons_le_cons_iff_le]
  | case6 a rest b rest' hname hrank =>
    have hkey : a.key ≠ b.key :=
      fun heq => hrank (congrArg Component.rank (Component.key_injective heq))
    rw [List.map_cons, List.map_cons, cons_le_cons_iff_lt hkey, Component.key_lt_iff hrank,
      decide_eq_true_iff]

end Path

namespace Files

open CodeIndex.Path (components notAfter stepKeys)

variable {paths : List (List Char)}

theorem mem_of_mem_dropRepeats {path : List Char} (h : path ∈ dropRepeats paths) :
    path ∈ paths := by
  induction paths using dropRepeats.induct with
  | case1 => rwa [dropRepeats] at h
  | case2 only => rwa [dropRepeats] at h
  | case3 first second rest hsame ih =>
    rw [dropRepeats, if_pos hsame] at h
    obtain rfl | hrest := List.mem_cons.1 (ih h)
    · exact List.mem_cons_self
    · exact List.mem_cons_of_mem _ (List.mem_cons_of_mem _ hrest)
  | case4 first second rest hdiffer ih =>
    rw [dropRepeats, if_neg hdiffer] at h
    obtain rfl | hrest := List.mem_cons.1 h
    · exact List.mem_cons_self
    · exact List.mem_cons_of_mem _ (ih hrest)

/-- Without its repetitions a sorted list is sorted strictly. -/
theorem pairwise_dropRepeats (h : paths.Pairwise fun p q => stepKeys p ≤ stepKeys q) :
    (dropRepeats paths).Pairwise fun p q => stepKeys p < stepKeys q := by
  induction paths using dropRepeats.induct with
  | case1 => rw [dropRepeats]; exact .nil
  | case2 path => rw [dropRepeats]; exact List.pairwise_singleton _ _
  | case3 first second rest hsame ih =>
    rw [dropRepeats, if_pos hsame]
    obtain ⟨hfirst, hsecond⟩ := List.pairwise_cons.1 h
    exact ih (List.pairwise_cons.2
      ⟨fun q hq => hfirst q (List.mem_cons_of_mem _ hq), (List.pairwise_cons.1 hsecond).2⟩)
  | case4 first second rest hdiffer ih =>
    rw [dropRepeats, if_neg hdiffer]
    obtain ⟨hfirst, hsecond⟩ := List.pairwise_cons.1 h
    have hne : stepKeys first ≠ stepKeys second := by
      rw [Ne, Path.stepKeys_inj]
      exact fun heq => hdiffer (beq_iff_eq.2 heq)
    have hlt := lt_of_le_of_ne (hfirst second List.mem_cons_self) hne
    refine List.pairwise_cons.2 ⟨fun q hq => ?_, ih hsecond⟩
    obtain rfl | hrest := List.mem_cons.1 (mem_of_mem_dropRepeats hq)
    · exact hlt
    · exact hlt.trans_le ((List.pairwise_cons.1 hsecond).1 q hrest)

theorem pairwise_sorted (paths : List (List Char)) :
    (paths.mergeSort fun a b => notAfter (components a) (components b)).Pairwise
      fun p q => stepKeys p ≤ stepKeys q := by
  refine (List.pairwise_mergeSort (fun p q r hpq hqr => ?_) (fun p q => ?_) paths).imp
    fun hle => (Path.notAfter_iff _ _).1 hle
  · exact (Path.notAfter_iff _ _).2
      (((Path.notAfter_iff _ _).1 hpq).trans ((Path.notAfter_iff _ _).1 hqr))
  · rw [Bool.or_eq_true, Path.notAfter_iff, Path.notAfter_iff]
    exact le_total _ _

/-- The files that some arguments stand for have different steps. -/
theorem pairwise_sourcesAt {tree : FileTree} {found : List (List Char)}
    (h : sourcesAt tree paths = .ok found) :
    found.Pairwise fun p q => components p ≠ components q := by
  rw [sourcesAt] at h
  cases hexpand : paths.mapM (expand tree) with
  | error message => rw [hexpand] at h; cases h
  | ok lists =>
    rw [hexpand] at h
    rw [← Except.ok.inj h]
    refine (pairwise_dropRepeats (pairwise_sorted lists.flatten)).imp fun hlt heq => ?_
    exact hlt.ne (Path.stepKeys_inj.2 heq)

end Files

end CodeIndex
