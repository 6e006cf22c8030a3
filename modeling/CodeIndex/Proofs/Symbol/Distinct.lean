import Mathlib.Data.List.Induction
import Mathlib.Data.List.Nodup
import Mathlib.Data.List.Perm.Subperm
import Mathlib.Order.Lattice

/-!
# The first of several names

Names are collected in the order of their first occurrences, each once, up to a limit.  A list that
was cut at the limit stands for the whole of it whatever is collected before or behind: as many
names as the limit allows are in it, and whoever has met that many does not look further.

## Main definitions

* `firstDistinct` is the list of the first different names.

## Main results

* `firstDistinct_concat`: how one more name is collected.
* `firstDistinct_append_firstDistinct`: a list may be cut before it is put behind another.
-/

namespace CodeIndex

/-- The first `cap` different names of a list, in the order in which they are met. -/
def firstDistinct (cap : Nat) (names : List String) : List String := names.eraseDups.take cap

section Distinct

variable {cap : Nat} {names more : List String} {name : String}

/-! ## Names without repetitions -/

/-- A name at the end of a list counts if it is new. -/
theorem eraseDups_concat (names : List String) (name : String) :
    (names ++ [name]).eraseDups =
      if name ∈ names then names.eraseDups else names.eraseDups ++ [name] := by
  rw [List.eraseDups_append]
  by_cases h : name ∈ names
  · have hnone : [name].removeAll names = [] := by simp [List.removeAll, h]
    rw [hnone, if_pos h, List.eraseDups_nil, List.append_nil]
  · have hself : [name].removeAll names = [name] := by simp [List.removeAll, h]
    rw [hself, if_neg h, List.eraseDups_cons]
    rfl

theorem nodup_eraseDups (names : List String) : names.eraseDups.Nodup := by
  induction names using List.reverseRecOn with
  | nil => exact List.nodup_nil
  | append_singleton names name ih =>
    rw [eraseDups_concat]
    split
    · exact ih
    · next h =>
      have hnew : name ∉ names.eraseDups := fun hmem => h (List.mem_eraseDups.1 hmem)
      rw [← List.concat_eq_append]
      exact ih.concat hnew

/-- Different names of a list are at most as many as it has without its repetitions. -/
theorem length_le_length_eraseDups (hnodup : more.Nodup) (hsubset : more ⊆ names) :
    more.length ≤ names.eraseDups.length := by
  have hall : more ⊆ names.eraseDups := fun name hname => List.mem_eraseDups.2 (hsubset hname)
  exact (hnodup.subperm hall).length_le

/-- The repetitions in the later names do not matter. -/
theorem eraseDups_append_eraseDups (names more : List String) :
    (names ++ more.eraseDups).eraseDups = (names ++ more).eraseDups := by
  induction more using List.reverseRecOn with
  | nil => rfl
  | append_singleton more name ih =>
    rw [eraseDups_concat]
    by_cases h : name ∈ more
    · have hmem : name ∈ names ++ more := List.mem_append_right names h
      rw [if_pos h, ih, ← List.append_assoc, eraseDups_concat, if_pos hmem]
    · have hmem : name ∈ names ++ more.eraseDups ↔ name ∈ names ++ more := by
        simp only [List.mem_append, List.mem_eraseDups]
      rw [if_neg h, ← List.append_assoc, ← List.append_assoc, eraseDups_concat, eraseDups_concat]
      simp only [hmem, ih]

/-! ## Names up to a limit -/

theorem firstDistinct_nil : firstDistinct cap [] = [] := by
  rw [firstDistinct, List.eraseDups_nil, List.take_nil]

/-- A full list does not change any more. -/
theorem firstDistinct_append_of_full (h : cap ≤ (firstDistinct cap names).length) :
    firstDistinct cap (names ++ more) = firstDistinct cap names := by
  have hfull : cap ≤ names.eraseDups.length := by
    rw [firstDistinct, List.length_take] at h
    omega
  rw [firstDistinct, List.eraseDups_append, List.take_append_of_le_length hfull, firstDistinct]

/-- A list that is not full is complete. -/
theorem firstDistinct_of_room (h : (firstDistinct cap names).length < cap) :
    firstDistinct cap names = names.eraseDups := by
  rw [firstDistinct, List.length_take] at h
  exact List.take_of_length_le (by omega)

/-- One more name is added if there is room and it is new. -/
theorem firstDistinct_concat (cap : Nat) (names : List String) (name : String) :
    firstDistinct cap (names ++ [name]) =
      if (firstDistinct cap names).length < cap ∧ name ∉ firstDistinct cap names then
        firstDistinct cap names ++ [name]
      else firstDistinct cap names := by
  by_cases hroom : (firstDistinct cap names).length < cap
  · have hall := firstDistinct_of_room hroom
    rw [hall] at hroom ⊢
    rw [firstDistinct, eraseDups_concat]
    by_cases h : name ∈ names
    · have hmem : name ∈ names.eraseDups := List.mem_eraseDups.2 h
      rw [if_pos h, if_neg fun hnew => hnew.2 hmem, List.take_of_length_le hroom.le]
    · have hmem : name ∉ names.eraseDups := fun hmem => h (List.mem_eraseDups.1 hmem)
      rw [if_neg h, if_pos ⟨hroom, hmem⟩, List.take_of_length_le]
      rw [List.length_append, List.length_singleton]
      exact hroom
  · rw [if_neg fun hboth => hroom hboth.1]
    exact firstDistinct_append_of_full (Nat.le_of_not_lt hroom)

theorem firstDistinct_concat_new (hroom : (firstDistinct cap names).length < cap)
    (hnew : name ∉ firstDistinct cap names) :
    firstDistinct cap (names ++ [name]) = firstDistinct cap names ++ [name] := by
  rw [firstDistinct_concat, if_pos ⟨hroom, hnew⟩]

theorem firstDistinct_concat_old (hold : name ∈ firstDistinct cap names) :
    firstDistinct cap (names ++ [name]) = firstDistinct cap names := by
  rw [firstDistinct_concat, if_neg fun hboth => hboth.2 hold]

/-- Names that are put behind others may be cut before: if some are cut off, those that are left
fill the list. -/
theorem firstDistinct_append_firstDistinct (cap : Nat) (names more : List String) :
    firstDistinct cap (names ++ firstDistinct cap more) = firstDistinct cap (names ++ more) := by
  have hwhole : firstDistinct cap (names ++ more) =
      firstDistinct cap (names ++ more.eraseDups) := by
    rw [firstDistinct, firstDistinct, eraseDups_append_eraseDups]
  rw [hwhole]
  by_cases hroom : (firstDistinct cap more).length < cap
  · rw [firstDistinct_of_room hroom]
  · have hcut : more.eraseDups = firstDistinct cap more ++ more.eraseDups.drop cap :=
      (List.take_append_drop cap more.eraseDups).symm
    have hnodup : (firstDistinct cap more).Nodup :=
      (nodup_eraseDups more).sublist (List.take_sublist cap _)
    have hcount : cap ≤ (names ++ firstDistinct cap more).eraseDups.length :=
      calc cap ≤ (firstDistinct cap more).length := Nat.le_of_not_lt hroom
        _ ≤ (names ++ firstDistinct cap more).eraseDups.length :=
          length_le_length_eraseDups hnodup (List.subset_append_right names _)
    have hfull : cap ≤ (firstDistinct cap (names ++ firstDistinct cap more)).length := by
      rw [firstDistinct, List.length_take]
      exact le_min le_rfl hcount
    rw [hcut, ← List.append_assoc]
    exact (firstDistinct_append_of_full hfull).symm

end Distinct

end CodeIndex
