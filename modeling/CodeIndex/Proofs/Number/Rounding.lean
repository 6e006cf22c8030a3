import Mathlib.Algebra.Order.Field.Power
import Mathlib.Algebra.Order.Floor.Semiring
import Mathlib.Data.Int.Log
import Mathlib.Data.Rat.Floor
import Mathlib.Tactic.FieldSimp
import Mathlib.Tactic.Linarith
import Mathlib.Tactic.Positivity
import Mathlib.Tactic.Ring

/-!
# Rounding to 64-bit floating point numbers

The bits of a non-negative floating point number, read as a natural number, count the
representable numbers below it.  So rounding is a function from the non-negative rational numbers to
counts, and everything that is said about the order of floating point numbers follows from the two
facts that this function is monotone and that it takes every representable number to its own bits.

## Main definitions

* `nearest` rounds to a natural number, ties to the even one.
* `roundedBits v` are the bits of the number that `v` is rounded to, and `magnitude bits` is the
  number with the given bits.

## Main results

* `roundedBits_mono` and `roundedBits_magnitude`: the two facts.
-/

namespace CodeIndex.Binary64

/-! ## Rounding to an integer -/

/-- The natural number nearest to a number, and of two such numbers the even one. -/
def nearest (q : ℚ) : ℕ :=
  let halves := ⌊2 * q⌋₊
  if halves % 2 = 0 then halves / 2
  else if 2 * q = halves then halves / 2 + halves / 2 % 2
  else halves / 2 + 1

theorem nearest_bounds (q : ℚ) :
    ⌊2 * q⌋₊ / 2 ≤ nearest q ∧ nearest q ≤ (⌊2 * q⌋₊ + 1) / 2 := by
  unfold nearest
  dsimp only
  split_ifs <;> omega

theorem nearest_mono {p q : ℚ} (h : p ≤ q) : nearest p ≤ nearest q := by
  have hhalves : ⌊2 * p⌋₊ ≤ ⌊2 * q⌋₊ := Nat.floor_mono (by linarith)
  obtain hlt | heq := Nat.lt_or_eq_of_le hhalves
  · have hp := (nearest_bounds p).2
    have hq := (nearest_bounds q).1
    omega
  · unfold nearest
    dsimp only
    rw [heq]
    split_ifs with heven hp hq hq
    · exact le_rfl
    · exact le_rfl
    · omega
    · -- Between a half and the next integer nothing is rounded down again.
      exfalso
      have hfloor : (⌊2 * p⌋₊ : ℚ) ≤ 2 * p := by
        refine Nat.floor_le ?_
        by_contra hneg
        rw [← heq, Nat.floor_of_nonpos (by linarith)] at heven
        exact heven rfl
      rw [heq] at hfloor
      exact hp (le_antisymm (by linarith) hfloor)
    · exact le_rfl

@[simp] theorem nearest_natCast (n : ℕ) : nearest n = n := by
  have hfloor : ⌊2 * (n : ℚ)⌋₊ = 2 * n := by exact_mod_cast Nat.floor_natCast (R := ℚ) (2 * n)
  simp [nearest, hfloor]

@[simp] theorem nearest_zero : nearest 0 = 0 := by
  exact_mod_cast nearest_natCast 0

theorem nearest_le {q : ℚ} {n : ℕ} (h : q ≤ n) : nearest q ≤ n :=
  nearest_natCast n ▸ nearest_mono h

theorem le_nearest {q : ℚ} {n : ℕ} (h : n ≤ q) : n ≤ nearest q :=
  (nearest_natCast n).symm.le.trans (nearest_mono h)

/-! ## Rounding to a floating point number -/

/-- The exponent of the last binary digit that is kept of a number. -/
def spacing (v : ℚ) : ℤ := if v = 0 then -1074 else max (Int.log 2 v - 52) (-1074)

/-- The bits of positive infinity. -/
def infinityBits : ℕ := 2047 * 2 ^ 52

/-- The bits of the floating point number that a non-negative number is rounded to. -/
def roundedBits (v : ℚ) : ℕ :=
  min infinityBits ((spacing v + 1074).toNat * 2 ^ 52 + nearest (v / 2 ^ spacing v))

theorem neg_le_spacing (v : ℚ) : -1074 ≤ spacing v := by
  unfold spacing
  split_ifs
  · exact le_rfl
  · exact le_max_right _ _

theorem spacing_mono {v w : ℚ} (hv : 0 ≤ v) (h : v ≤ w) : spacing v ≤ spacing w := by
  obtain rfl | hpos := hv.eq_or_lt
  · simpa [spacing] using neg_le_spacing w
  · rw [spacing, spacing, if_neg hpos.ne', if_neg (hpos.trans_le h).ne']
    exact max_le_max_right _ (Int.sub_le_sub_right (Int.log_mono_right hpos h) 52)

/-- The digits that are kept are at most 53. -/
theorem div_spacing_lt {v : ℚ} (hv : 0 ≤ v) : v / 2 ^ spacing v < 2 ^ 53 := by
  rw [div_lt_iff₀ (by positivity)]
  obtain rfl | hpos := hv.eq_or_lt
  · positivity
  · have hlog : v < (2 : ℚ) ^ (Int.log 2 v + 1) := by
      exact_mod_cast Int.lt_zpow_succ_log_self (by norm_num : 1 < 2) v
    have hspacing : Int.log 2 v + 1 ≤ 53 + spacing v := by
      rw [spacing, if_neg hpos.ne']
      omega
    calc v < (2 : ℚ) ^ (Int.log 2 v + 1) := hlog
      _ ≤ 2 ^ (53 + spacing v) := zpow_le_zpow_right₀ (by norm_num) hspacing
      _ = 2 ^ 53 * 2 ^ spacing v := by rw [zpow_add₀ (by norm_num)]; norm_num

/-- Above the smallest exponent, the digits that are kept are 53. -/
theorem le_div_spacing {v : ℚ} (hv : 0 ≤ v) (h : -1074 < spacing v) :
    2 ^ 52 ≤ v / 2 ^ spacing v := by
  rw [le_div_iff₀ (by positivity)]
  have hpos : 0 < v := by
    refine hv.lt_of_ne fun hzero => ?_
    simp [spacing, ← hzero] at h
  have hlog : (2 : ℚ) ^ Int.log 2 v ≤ v := by
    exact_mod_cast Int.zpow_log_le_self (by norm_num : 1 < 2) hpos
  have hspacing : 52 + spacing v = Int.log 2 v := by
    rw [spacing, if_neg hpos.ne'] at h ⊢
    omega
  calc (2 : ℚ) ^ 52 * 2 ^ spacing v = 2 ^ (52 + spacing v) := by
        rw [zpow_add₀ (by norm_num)]; norm_num
    _ = 2 ^ Int.log 2 v := by rw [hspacing]
    _ ≤ v := hlog

theorem nearest_div_spacing_le {v : ℚ} (hv : 0 ≤ v) : nearest (v / 2 ^ spacing v) ≤ 2 ^ 53 :=
  nearest_le (by exact_mod_cast (div_spacing_lt hv).le)

theorem le_nearest_div_spacing {v : ℚ} (hv : 0 ≤ v) (h : -1074 < spacing v) :
    2 ^ 52 ≤ nearest (v / 2 ^ spacing v) :=
  le_nearest (by exact_mod_cast le_div_spacing hv h)

/-- Rounding keeps the order. -/
theorem roundedBits_mono {v w : ℚ} (hv : 0 ≤ v) (h : v ≤ w) : roundedBits v ≤ roundedBits w := by
  refine min_le_min_left _ ?_
  obtain hlt | heq := (spacing_mono hv h).lt_or_eq
  · -- A greater exponent leaves room for all numbers of the smaller one.
    have hbelow := neg_le_spacing v
    have hupper := nearest_div_spacing_le hv
    have hlower := le_nearest_div_spacing (hv.trans h) (by omega)
    omega
  · rw [heq]
    gcongr
    exact nearest_mono (by gcongr)

@[simp] theorem roundedBits_zero : roundedBits 0 = 0 := by
  simp [roundedBits, spacing]

theorem roundedBits_le (v : ℚ) : roundedBits v ≤ infinityBits := min_le_left _ _

/-- The logarithm of a number whose leading digits are known. -/
theorem log_eq {v : ℚ} {m : ℕ} {e : ℤ} (hm : 0 < m) (hlow : m * 2 ^ e ≤ v)
    (hhigh : v < (m + 1) * 2 ^ e) : Int.log 2 v = m.log2 + e := by
  have hpos : 0 < v := lt_of_lt_of_le (by positivity) hlow
  refine le_antisymm (Int.lt_add_one_iff.1 ?_) ?_
  · rw [← Int.lt_zpow_iff_log_lt (by norm_num) hpos]
    have hdigits : (m + 1 : ℚ) ≤ 2 ^ (m.log2 + 1) := by exact_mod_cast Nat.lt_log2_self
    calc v < (m + 1) * 2 ^ e := hhigh
      _ ≤ 2 ^ (m.log2 + 1) * 2 ^ e := by gcongr
      _ = ((2 : ℕ) : ℚ) ^ (m.log2 + e + 1) := by
        rw [← zpow_natCast, ← zpow_add₀ (by norm_num)]
        push_cast
        ring_nf
  · rw [← Int.zpow_le_iff_le_log (by norm_num) hpos]
    have hdigits : (2 : ℚ) ^ m.log2 ≤ m := by exact_mod_cast Nat.log2_self_le hm.ne'
    calc ((2 : ℕ) : ℚ) ^ ((m.log2 : ℤ) + e) = 2 ^ m.log2 * 2 ^ e := by
          rw [zpow_add₀ (by norm_num)]
          norm_num
      _ ≤ m * 2 ^ e := by gcongr
      _ ≤ v := hlow

/-- A quotient has at most one digit less than the digits of its arguments let expect. -/
theorem le_log_div {m m' : ℕ} (hm : 0 < m) (hm' : 0 < m') (e e' : ℤ) :
    (m.log2 : ℤ) + e - (m'.log2 + 1 + e') ≤ Int.log 2 ((m : ℚ) * 2 ^ e / (m' * 2 ^ e')) := by
  have hlow : (2 : ℚ) ^ m.log2 ≤ m := by exact_mod_cast Nat.log2_self_le hm.ne'
  have hhigh : (m' : ℚ) ≤ 2 ^ (m'.log2 + 1) := by exact_mod_cast Nat.lt_log2_self.le
  rw [← Int.zpow_le_iff_le_log (by norm_num) (by positivity)]
  calc ((2 : ℕ) : ℚ) ^ ((m.log2 : ℤ) + e - (m'.log2 + 1 + e')) =
        2 ^ m.log2 * 2 ^ e / (2 ^ (m'.log2 + 1) * 2 ^ e') := by
        rw [zpow_sub₀ (by norm_num), zpow_add₀ (by norm_num), zpow_add₀ (by norm_num)]
        norm_cast
    _ ≤ m * 2 ^ e / (m' * 2 ^ e') := by gcongr

/-- The spacing at a number whose digits end at its spacing. -/
theorem spacing_eq {m : ℕ} {e : ℤ} (hm : m < 2 ^ 53) (he : -1074 ≤ e)
    (hnormal : -1074 < e → 2 ^ 52 ≤ m) : spacing (m * 2 ^ e) = e := by
  obtain rfl | hpos := m.eq_zero_or_pos
  · simp [spacing]
    omega
  · have hlog := log_eq hpos (le_refl ((m : ℚ) * 2 ^ e))
      ((mul_lt_mul_iff_left₀ (by positivity)).2 (lt_add_one _))
    have hbits : m.log2 < 53 := (Nat.log2_lt hpos.ne').2 hm
    have hleast : -1074 < e → 52 ≤ m.log2 := fun h => (Nat.le_log2 hpos.ne').2 (hnormal h)
    have hne : (m : ℚ) * 2 ^ e ≠ 0 := by positivity
    rw [spacing, if_neg hne, hlog]
    omega

/-- A number whose digits end at its spacing is not rounded. -/
theorem roundedBits_eq {m : ℕ} {e : ℤ} (hm : m < 2 ^ 53) (he : -1074 ≤ e)
    (hnormal : -1074 < e → 2 ^ 52 ≤ m) :
    roundedBits (m * 2 ^ e) = min infinityBits ((e + 1074).toNat * 2 ^ 52 + m) := by
  have hcancel : (m : ℚ) * 2 ^ e / 2 ^ e = m := by field_simp
  rw [roundedBits, spacing_eq hm he hnormal, hcancel, nearest_natCast]

/-! ## The number with given bits -/

/-- How often the spacing doubles below the number with the given bits. -/
def doublings (bits : ℕ) : ℕ := bits / 2 ^ 52 - 1

/-- The digits of the number with the given bits, as an integer. -/
def digits (bits : ℕ) : ℕ := bits - doublings bits * 2 ^ 52

/-- The number with the given bits; the bits of infinity count as the power of two that is too
large for the format. -/
def magnitude (bits : ℕ) : ℚ := digits bits * 2 ^ ((doublings bits : ℤ) - 1074)

theorem magnitude_nonneg (bits : ℕ) : 0 ≤ magnitude bits := by
  unfold magnitude
  positivity

theorem doublings_add_digits (bits : ℕ) : doublings bits * 2 ^ 52 + digits bits = bits := by
  unfold digits doublings
  omega

theorem digits_lt (bits : ℕ) : digits bits < 2 ^ 53 := by
  unfold digits doublings
  omega

theorem le_digits {bits : ℕ} (h : 0 < doublings bits) : 2 ^ 52 ≤ digits bits := by
  unfold digits doublings at *
  omega

theorem digits_pos {bits : ℕ} (h : 0 < bits) : 0 < digits bits := by
  unfold digits doublings
  omega

/-- A representable number is rounded to itself. -/
theorem roundedBits_magnitude {bits : ℕ} (h : bits ≤ infinityBits) :
    roundedBits (magnitude bits) = bits := by
  have hbits := doublings_add_digits bits
  rw [magnitude, roundedBits_eq (digits_lt bits) (by omega) fun hlt => le_digits (by omega)]
  omega

/-- The order of the bits is the order of the numbers. -/
theorem magnitude_mono {bits bits' : ℕ} (h : bits ≤ bits') (hbits' : bits' ≤ infinityBits) :
    magnitude bits ≤ magnitude bits' := by
  by_contra hlt
  rw [not_le] at hlt
  have hle := roundedBits_mono (magnitude_nonneg bits') hlt.le
  rw [roundedBits_magnitude hbits', roundedBits_magnitude (h.trans hbits')] at hle
  rw [le_antisymm h hle] at hlt
  exact lt_irrefl _ hlt

@[simp] theorem magnitude_zero : magnitude 0 = 0 := by
  simp [magnitude, digits]

theorem magnitude_pos {bits : ℕ} (h : 0 < bits) : 0 < magnitude bits := by
  have hdigits := digits_pos h
  unfold magnitude
  positivity

end CodeIndex.Binary64
