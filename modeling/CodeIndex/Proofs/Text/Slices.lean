import Mathlib.Data.List.Infix
import CodeIndex.Text.Lines

/-!
# Slices of a text

A byte offset is a boundary of a text if some characters at the start of the text make up that many
bytes.  Between two boundaries there is a slice, and `slice?` finds it.

## Main definitions

* `IsBoundary` and `IsSlice` are the boundaries and the slices of a text.

## Main results

* `slice?_eq_some_iff`: `slice?` answers with the slice between two offsets.
* `exists_isSlice`: there is one between any two boundaries in order.
-/

namespace CodeIndex.Text

/-- Some characters at the start of the text take `offset` bytes. -/
def IsBoundary (text : List Char) (offset : Nat) : Prop :=
  ∃ before after, text = before ++ after ∧ byteLength before = offset

/-- The characters between two byte offsets. -/
def IsSlice (text : List Char) (start stop : Nat) (slice : List Char) : Prop :=
  ∃ before after, text = before ++ slice ++ after ∧ byteLength before = start ∧
    byteLength (before ++ slice) = stop

variable {text slice : List Char} {start stop count offset : Nat}

@[simp] theorem byteLength_nil : byteLength [] = 0 := rfl

theorem foldl_utf8Size (n : Nat) (text : List Char) :
    text.foldl (fun n c => n + c.utf8Size) n = n + byteLength text := by
  induction text generalizing n with
  | nil => rfl
  | cons c rest ih =>
    rw [byteLength, List.foldl_cons, List.foldl_cons, ih, ih (0 + c.utf8Size)]
    omega

theorem byteLength_append (first second : List Char) :
    byteLength (first ++ second) = byteLength first + byteLength second := by
  rw [byteLength, List.foldl_append, foldl_utf8Size, ← byteLength]

@[simp] theorem byteLength_cons (c : Char) (rest : List Char) :
    byteLength (c :: rest) = c.utf8Size + byteLength rest := by
  rw [← List.singleton_append, byteLength_append, byteLength, List.foldl_cons, List.foldl_nil,
    Nat.zero_add]

@[simp] theorem byteLength_eq_zero : byteLength text = 0 ↔ text = [] := by
  cases text with
  | nil => simp
  | cons c rest =>
    have := c.utf8Size_pos
    simp
    omega

theorem dropBytes?_eq_some_iff {rest : List Char} :
    dropBytes? count text = some rest ↔
      ∃ before, text = before ++ rest ∧ byteLength before = count := by
  induction text generalizing count with
  | nil =>
    cases count with
    | zero => simp [dropBytes?]
    | succ count =>
      simp only [dropBytes?, reduceCtorEq, List.nil_eq, List.append_eq_nil_iff, false_iff]
      rintro ⟨before, ⟨rfl, -⟩, hlength⟩
      simp at hlength
  | cons c text ih =>
    have hpos := c.utf8Size_pos
    cases count with
    | zero => simp [dropBytes?]
    | succ count =>
      -- The characters before the rest are `c` and those that the recursion drops.
      have hcons : (∃ before, c :: text = before ++ rest ∧ byteLength before = count + 1) ↔
          ∃ before, text = before ++ rest ∧ c.utf8Size + byteLength before = count + 1 := by
        constructor
        · rintro ⟨_ | ⟨d, before⟩, htext, hlength⟩
          · simp at hlength
          · obtain ⟨rfl, hrest⟩ := List.cons.inj htext
            exact ⟨before, hrest, by simpa using hlength⟩
        · rintro ⟨before, rfl, hlength⟩
          exact ⟨c :: before, rfl, by simpa using hlength⟩
      rw [dropBytes?, hcons]
      split
      · rw [ih]
        refine exists_congr fun before => and_congr_right fun _ => ?_
        omega
      · simp only [reduceCtorEq, false_iff, not_exists, not_and]
        intro before _
        omega

instance : Decidable (IsBoundary text offset) :=
  decidable_of_iff ((dropBytes? offset text).isSome) <| by
    simp only [Option.isSome_iff_exists, dropBytes?_eq_some_iff, IsBoundary]
    exact exists_comm

theorem takeBytes?_eq_some_iff {taken found : List Char} :
    takeBytes? taken count text = some found ↔
      ∃ slice after, text = slice ++ after ∧ byteLength slice = count ∧
        found = taken.reverse ++ slice := by
  induction text generalizing count taken with
  | nil =>
    cases count with
    | zero => simp [takeBytes?, eq_comm (b := found)]
    | succ count =>
      simp only [takeBytes?, reduceCtorEq, List.nil_eq, List.append_eq_nil_iff, false_iff]
      rintro ⟨slice, after, ⟨rfl, -⟩, hlength, -⟩
      simp at hlength
  | cons c text ih =>
    have hpos := c.utf8Size_pos
    cases count with
    | zero => simp [takeBytes?, eq_comm (b := found)]
    | succ count =>
      have hcons : (∃ slice after, c :: text = slice ++ after ∧ byteLength slice = count + 1 ∧
          found = taken.reverse ++ slice) ↔ ∃ slice after, text = slice ++ after ∧
          c.utf8Size + byteLength slice = count + 1 ∧ found = (c :: taken).reverse ++ slice := by
        constructor
        · rintro ⟨_ | ⟨d, slice⟩, after, htext, hlength, hfound⟩
          · simp at hlength
          · obtain ⟨rfl, hrest⟩ := List.cons.inj htext
            exact ⟨slice, after, hrest, by simpa using hlength, by simpa using hfound⟩
        · rintro ⟨slice, after, rfl, hlength, hfound⟩
          exact ⟨c :: slice, after, rfl, by simpa using hlength, by simpa using hfound⟩
      rw [takeBytes?, hcons]
      split
      · rw [ih]
        refine exists₂_congr fun slice after => and_congr_right fun _ => and_congr_left fun _ => ?_
        omega
      · simp only [reduceCtorEq, false_iff, not_exists, not_and]
        intro slice after _
        omega

/-- `slice?` answers with the slice between the two offsets. -/
theorem slice?_eq_some_iff :
    slice? text start stop = some slice ↔ IsSlice text start stop slice := by
  unfold slice? IsSlice
  constructor
  · intro h
    split at h
    · next hle =>
      obtain ⟨rest, hrest, hslice⟩ := Option.bind_eq_some_iff.1 h
      obtain ⟨before, rfl, hbefore⟩ := dropBytes?_eq_some_iff.1 hrest
      obtain ⟨slice, after, rfl, hlength, rfl⟩ := takeBytes?_eq_some_iff.1 hslice
      refine ⟨before, after, by simp, hbefore, ?_⟩
      rw [byteLength_append]
      omega
    · cases h
  · rintro ⟨before, after, rfl, rfl, rfl⟩
    rw [byteLength_append, if_pos (Nat.le_add_right _ _), Nat.add_sub_cancel_left,
      Option.bind_eq_some_iff]
    exact ⟨slice ++ after, dropBytes?_eq_some_iff.2 ⟨before, by simp, rfl⟩,
      takeBytes?_eq_some_iff.2 ⟨slice, after, rfl, rfl, rfl⟩⟩

/-- Between two boundaries in order there is a slice. -/
theorem exists_isSlice (hstart : IsBoundary text start) (hstop : IsBoundary text stop)
    (hle : start ≤ stop) : ∃ slice, IsSlice text start stop slice := by
  obtain ⟨before, rest, rfl, rfl⟩ := hstart
  obtain ⟨through, after, htext, rfl⟩ := hstop
  have hbefore : before <+: before ++ rest := List.prefix_append _ _
  have hthrough : through <+: before ++ rest := htext ▸ List.prefix_append _ _
  -- The characters up to the first boundary are the first ones of those up to the second.
  have hprefix : before <+: through := by
    obtain h | ⟨more, rfl⟩ := List.prefix_or_prefix_of_prefix hbefore hthrough
    · exact h
    · rw [byteLength_append] at hle
      have hnone : more = [] := byteLength_eq_zero.1 (by omega)
      rw [hnone, List.append_nil]
  obtain ⟨slice, rfl⟩ := hprefix
  exact ⟨slice, before, after, htext, rfl, rfl⟩

end CodeIndex.Text
