import Mathlib.Data.Sign.Basic
import CodeIndex.Proofs.Number.Packing

/-!
# Normal numbers of a format

Between its smallest normal number and its largest one a format keeps a fixed count of binary digits
of every number, whatever its exponent.  In this range the operations on floating point numbers are
rounding to that many digits, and nothing underflows or overflows.

## Main definitions

* `rounded p v` is `v` rounded to `p` binary digits, ties to the even last digit.
* `Denotes` relates unpacked numbers, zero and the normal ones of either sign, to the rational
  numbers that they stand for.

## Main results

* `Denotes.unpack_pack`: packing keeps these numbers.
* `Denotes.add`, `Denotes.mul_self`, `Denotes.div` and `Denotes.sqrt`: the operations in this range.
-/

namespace CodeIndex.FloatFormat

open Float.Model Float.Model.UnpackedFloat
open Binary64 (nearest nearest_mono nearest_natCast nearest_le le_nearest log_eq Approximates)

variable {p : ℕ} {v w : ℚ}

/-! ## Rounding to digits -/

/-- The exponent of the last of the digits of a number. -/
def lastExponent (p : ℕ) (v : ℚ) : ℤ := Int.log 2 |v| + 1 - p

/-- A number rounded to some binary digits. -/
def rounded (p : ℕ) (v : ℚ) : ℚ :=
  SignType.sign v * (nearest (|v| / 2 ^ lastExponent p v) * 2 ^ lastExponent p v)

theorem rounded_of_pos (hv : 0 < v) :
    rounded p v = nearest (v / 2 ^ lastExponent p v) * 2 ^ lastExponent p v := by
  simp [rounded, sign_pos hv, abs_of_pos hv]

@[simp] theorem rounded_zero : rounded p 0 = 0 := by
  simp [rounded]

@[simp] theorem lastExponent_neg : lastExponent p (-v) = lastExponent p v := by
  simp [lastExponent]

@[simp] theorem rounded_neg : rounded p (-v) = -rounded p v := by
  simp [rounded, Left.sign_neg]

theorem two_zpow_log_le (hv : 0 < v) : (2 : ℚ) ^ Int.log 2 v ≤ v := by
  exact_mod_cast Int.zpow_log_le_self (by norm_num : 1 < 2) hv

theorem zpow_le_iff_le_log {n : ℤ} (hv : 0 < v) : (2 : ℚ) ^ n ≤ v ↔ n ≤ Int.log 2 v := by
  exact_mod_cast Int.zpow_le_iff_le_log (by norm_num : 1 < 2) hv

theorem lt_zpow_iff_log_lt {n : ℤ} (hv : 0 < v) : v < (2 : ℚ) ^ n ↔ Int.log 2 v < n := by
  exact_mod_cast Int.lt_zpow_iff_log_lt (by norm_num : 1 < 2) hv

/-- The digits of a number are as many as are kept. -/
theorem digits_bounds (hp : 0 < p) (hv : 0 < v) :
    ((2 ^ (p - 1) : ℕ) : ℚ) ≤ v / 2 ^ lastExponent p v ∧
      v / 2 ^ lastExponent p v < ((2 ^ p : ℕ) : ℚ) := by
  have hscale : (0 : ℚ) < 2 ^ lastExponent p v := by positivity
  rw [le_div_iff₀ hscale, div_lt_iff₀ hscale]
  push_cast
  rw [← zpow_natCast, ← zpow_natCast, ← zpow_add₀ (by norm_num), ← zpow_add₀ (by norm_num),
    lastExponent, abs_of_pos hv, zpow_le_iff_le_log hv, lt_zpow_iff_log_lt hv]
  omega

theorem nearest_digits_bounds (hp : 0 < p) (hv : 0 < v) :
    2 ^ (p - 1) ≤ nearest (v / 2 ^ lastExponent p v) ∧
      nearest (v / 2 ^ lastExponent p v) ≤ 2 ^ p :=
  ⟨le_nearest (digits_bounds hp hv).1, nearest_le (digits_bounds hp hv).2.le⟩

/-- Rounding does not leave the powers of two around a number. -/
theorem rounded_bounds (hp : 0 < p) (hv : 0 < v) :
    (2 : ℚ) ^ Int.log 2 v ≤ rounded p v ∧ rounded p v ≤ 2 ^ (Int.log 2 v + 1) := by
  obtain ⟨hlow, hhigh⟩ := nearest_digits_bounds hp hv
  have hscale : (0 : ℚ) < 2 ^ lastExponent p v := by positivity
  have hleast : ((p - 1 : ℕ) : ℤ) + lastExponent p v = Int.log 2 v := by
    rw [lastExponent, abs_of_pos hv]
    omega
  have hgreatest : (p : ℤ) + lastExponent p v = Int.log 2 v + 1 := by
    rw [lastExponent, abs_of_pos hv]
    omega
  rw [rounded_of_pos hv, ← hgreatest, ← hleast, zpow_add₀ (by norm_num), zpow_add₀ (by norm_num),
    mul_le_mul_iff_left₀ hscale, mul_le_mul_iff_left₀ hscale, zpow_natCast, zpow_natCast]
  exact ⟨by exact_mod_cast hlow, by exact_mod_cast hhigh⟩

theorem rounded_pos (hp : 0 < p) (hv : 0 < v) : 0 < rounded p v :=
  lt_of_lt_of_le (by positivity) (rounded_bounds hp hv).1

/-- Rounding keeps the order. -/
theorem rounded_mono (hp : 0 < p) (hv : 0 < v) (h : v ≤ w) : rounded p v ≤ rounded p w := by
  have hw := hv.trans_le h
  obtain hlt | heq := (Int.log_mono_right (b := 2) hv h).lt_or_eq
  · calc rounded p v ≤ 2 ^ (Int.log 2 v + 1) := (rounded_bounds hp hv).2
      _ ≤ 2 ^ Int.log 2 w := zpow_le_zpow_right₀ (by norm_num) hlt
      _ ≤ rounded p w := (rounded_bounds hp hw).1
  · have hlast : lastExponent p v = lastExponent p w := by
      rw [lastExponent, lastExponent, abs_of_pos hv, abs_of_pos hw, heq]
    rw [rounded_of_pos hv, rounded_of_pos hw, hlast]
    gcongr
    exact nearest_mono (by gcongr)

/-- A number without further digits is not rounded. -/
theorem rounded_eq {m : ℕ} (hm : m < 2 ^ p) (e : ℤ) : rounded p (m * 2 ^ e) = m * 2 ^ e := by
  obtain rfl | hpos := m.eq_zero_or_pos
  · simp
  · have hv : (0 : ℚ) < m * 2 ^ e := by positivity
    have hlog := log_eq hpos (le_refl ((m : ℚ) * 2 ^ e))
      ((mul_lt_mul_iff_left₀ (by positivity)).2 (lt_add_one _))
    have hdigits : m.log2 < p := (Nat.log2_lt hpos.ne').2 hm
    have hlast : lastExponent p (m * 2 ^ e) ≤ e := by
      rw [lastExponent, abs_of_pos hv, hlog]
      omega
    have hwhole : (m : ℚ) * 2 ^ e / 2 ^ lastExponent p (m * 2 ^ e) =
        (m * 2 ^ (e - lastExponent p (m * 2 ^ e)).toNat : ℕ) := by
      rw [div_eq_iff (by positivity), Binary64.mul_two_pow_mul_zpow hlast]
    rw [rounded_of_pos hv, hwhole, nearest_natCast, Binary64.mul_two_pow_mul_zpow hlast]

theorem rounded_two_zpow (hp : 0 < p) (e : ℤ) : rounded p (2 ^ e) = 2 ^ e := by
  simpa using rounded_eq (Nat.one_lt_two_pow hp.ne') e

theorem rounded_le (hp : 0 < p) (hv : 0 < v) {e : ℤ} (h : v ≤ 2 ^ e) : rounded p v ≤ 2 ^ e :=
  (rounded_mono hp hv h).trans (rounded_two_zpow hp e).le

theorem le_rounded (hp : 0 < p) {e : ℤ} (h : 2 ^ e ≤ v) : 2 ^ e ≤ rounded p v :=
  (rounded_two_zpow hp e).ge.trans (rounded_mono hp (by positivity) h)

theorem rounded_eq_zero (hp : 0 < p) : rounded p v = 0 ↔ v = 0 := by
  obtain hneg | rfl | hpos := lt_trichotomy v 0
  · have hopposite := rounded_pos hp (neg_pos.2 hneg)
    rw [rounded_neg] at hopposite
    exact iff_of_false (neg_pos.1 hopposite).ne hneg.ne
  · simp
  · exact iff_of_false (rounded_pos hp hpos).ne' hpos.ne'

/-! ## Normal numbers -/

/-- A magnitude with a sign. -/
def signed : Sign → ℚ → ℚ
  | .positive, v => v
  | .negative, v => -v

@[simp] theorem signed_eq_zero {sign : Sign} : signed sign v = 0 ↔ v = 0 := by
  cases sign <;> simp [signed]

theorem rounded_signed {sign : Sign} : rounded p (signed sign v) = signed sign (rounded p v) := by
  cases sign <;> simp [signed]

variable {spec : Format}

/-- An unpacked number is zero, or it has all digits of its format and an exponent that can be
packed, and it stands for a rational number. -/
inductive Denotes (spec : Format) : UnpackedFloat → ℚ → Prop
  | zero : Denotes spec (.zero .positive) 0
  | finite {sign : Sign} {m : ℕ} {e : ℤ} (hm : 0 < m) (hdigits : m.log2 + 1 = spec.mantissaBits)
      (hleast : spec.minExponent ≤ e)
      (hgreatest : e ≤ spec.exponentBias - spec.mantissaBitsWithoutImplicit) :
      Denotes spec (.finite sign m e hm) (signed sign (m * 2 ^ e))

theorem mantissaBits_eq : spec.mantissaBits = spec.mantissaBitsWithoutImplicit + 1 :=
  Nat.add_comm _ _

theorem two_pow_exponentBits : 2 ^ spec.exponentBits = 2 * spec.exponentBias + 2 := by
  have hexponent := spec.he
  obtain ⟨k, hk⟩ : ∃ k, spec.exponentBits = k + 1 := ⟨spec.exponentBits - 1, by omega⟩
  have hpos := @Nat.one_le_two_pow k
  rw [Format.exponentBias, hk, Nat.pow_succ, Nat.add_sub_cancel]
  omega

theorem minExponent_eq :
    spec.minExponent = 1 - (spec.exponentBias : ℤ) - spec.mantissaBitsWithoutImplicit := by
  have hpos := @Nat.one_le_two_pow (spec.exponentBits - 1)
  rw [Format.minExponent, Format.exponentBias, mantissaBits_eq]
  push_cast [hpos]
  ring

@[simp] theorem unpackSign_packComponents (sign : Sign) (exponent : BitVec spec.exponentBits)
    (mantissa : BitVec spec.mantissaBitsWithoutImplicit) :
    unpackSign (packComponents spec sign exponent mantissa) = sign.toBitVec := by
  ext i hi
  obtain rfl : i = 0 := by omega
  unfold unpackSign packComponents
  simp [BitVec.getLsbD_append, BitVec.getElem_append]

@[simp] theorem ofBitVec_toBitVec (sign : Sign) : Sign.ofBitVec sign.toBitVec = sign := by
  cases sign <;> rfl

/-- The digits of a normal number are those that are stored behind a first one. -/
theorem toNat_implicit_ofNat {m : ℕ} (hm : 0 < m) (hdigits : m.log2 + 1 = spec.mantissaBits) :
    (1#1 ++ BitVec.ofNat spec.mantissaBitsWithoutImplicit m).toNat = m := by
  rw [mantissaBits_eq, Nat.add_right_cancel_iff] at hdigits
  have hlow : 2 ^ spec.mantissaBitsWithoutImplicit ≤ m := (Nat.le_log2 hm.ne').1 hdigits.ge
  have hhigh : m < 2 ^ (spec.mantissaBitsWithoutImplicit + 1) :=
    (Nat.log2_lt hm.ne').1 (by omega)
  have hmod : m % 2 ^ spec.mantissaBitsWithoutImplicit =
      m - 2 ^ spec.mantissaBitsWithoutImplicit := by
    rw [Nat.mod_eq_sub_mod hlow, Nat.mod_eq_of_lt (by omega)]
  rw [BitVec.toNat_append, ← Nat.shiftLeft_add_eq_or_of_lt (BitVec.isLt _), Nat.shiftLeft_eq,
    BitVec.toNat_ofNat, BitVec.toNat_ofNat, hmod]
  omega

/-- Packing keeps zero and the normal numbers. -/
theorem Denotes.unpack_pack {x : UnpackedFloat} (h : Denotes spec x v) :
    UnpackedFloat.unpack spec (UnpackedFloat.pack spec x) = x := by
  have hcapacity := @two_pow_exponentBits spec
  cases h with
  | zero =>
    change UnpackedFloat.unpack spec (packedZero spec .positive) = .zero .positive
    have hspecial : (0 : BitVec spec.exponentBits) ≠ -1#_ := by simp [spec.he.ne']
    have hexponent : (0 : BitVec spec.exponentBits) = 0#_ := rfl
    have hmantissa : unpackMantissa (packComponents spec .positive 0 0) = 0#_ :=
      unpackMantissa_packComponents
    unfold packedZero UnpackedFloat.unpack
    dsimp only
    rw [unpackExponent_packComponents, if_neg hspecial, if_pos hexponent, dif_pos hmantissa,
      unpackSign_packComponents, ofBitVec_toBitVec]
  | @finite sign m e hm hdigits hleast hgreatest =>
    rw [minExponent_eq] at hleast
    obtain ⟨biased, hbiased⟩ : ∃ biased,
        biased = (e + spec.exponentBias + spec.mantissaBitsWithoutImplicit).toNat := ⟨_, rfl⟩
    have hexponent : (BitVec.ofNat spec.exponentBits biased).toNat = biased := by
      rw [BitVec.toNat_ofNat, Nat.mod_eq_of_lt (by omega)]
    have hspecial : BitVec.ofNat spec.exponentBits biased ≠ -1#_ := by
      rw [Ne, ← BitVec.toNat_inj, hexponent, BitVec.neg_one_eq_allOnes, BitVec.toNat_allOnes]
      omega
    have hnormal : BitVec.ofNat spec.exponentBits biased ≠ 0#_ := by
      rw [Ne, ← BitVec.toNat_inj, hexponent, BitVec.toNat_zero]
      omega
    have hpack : UnpackedFloat.pack spec (.finite sign m e hm) =
        packComponents spec sign (BitVec.ofNat _ biased) (BitVec.ofNat _ m) := by
      unfold UnpackedFloat.pack
      dsimp only
      rw [← hbiased, if_neg (by omega), if_pos hdigits]
    rw [hpack]
    unfold UnpackedFloat.unpack
    dsimp only
    rw [unpackExponent_packComponents, if_neg hspecial, if_neg hnormal, finite.injEq,
      unpackSign_packComponents, ofBitVec_toBitVec, unpackMantissa_packComponents,
      toNat_implicit_ofNat hm hdigits, hexponent]
    exact ⟨rfl, rfl, by omega⟩

theorem Denotes.eq_zero {x : UnpackedFloat} (h : Denotes spec x v) (hv : v = 0) :
    x = .zero .positive := by
  cases h with
  | zero => rfl
  | @finite sign m e hm =>
    have hmagnitude : (m : ℚ) * 2 ^ e ≠ 0 := by positivity
    exact absurd (signed_eq_zero.1 hv) hmagnitude

theorem Denotes.eq_finite {x : UnpackedFloat} (h : Denotes spec x v) (hv : v ≠ 0) :
    ∃ sign m e hm, x = .finite sign m e hm ∧ v = signed sign (m * 2 ^ e) := by
  cases h with
  | zero => exact absurd rfl hv
  | finite hm => exact ⟨_, _, _, hm, rfl, rfl⟩

theorem Denotes.isFinite {x : UnpackedFloat} (h : Denotes spec x v) : x.isFinite = true := by
  cases h <;> rfl

/-- A positive number has the positive sign. -/
theorem sign_eq_positive {sign : Sign} {m : ℕ} {e : ℤ} (h : 0 < signed sign (m * 2 ^ e)) :
    sign = .positive := by
  cases sign with
  | positive => rfl
  | negative =>
    have hmagnitude : (0 : ℚ) ≤ m * 2 ^ e := by positivity
    simp only [signed] at h
    exact absurd h (by linarith)

/-! ## The rounding of the operations -/

/-- A number whose digits, rounded, have an exponent that can be packed. -/
structure InRange (spec : Format) (v : ℚ) : Prop where
  least : spec.minExponent ≤ lastExponent spec.mantissaBits v
  greatest : Int.log 2 |v| < spec.exponentBias

section Round

variable {sign : Sign} {m : ℕ} {e : ℤ} {accuracy : Accuracy}

theorem mantissaBits_pos : 0 < spec.mantissaBits := by
  rw [mantissaBits_eq]
  exact Nat.succ_pos _

/-- Digits that were rounded to as many as are kept make a normal number. -/
theorem denotes_roundedNumber {r : ℕ} {t : ℤ} (hlow : 2 ^ (spec.mantissaBits - 1) ≤ r)
    (hhigh : r ≤ 2 ^ spec.mantissaBits) (hleast : spec.minExponent ≤ t)
    (hgreatest : t < spec.exponentBias - spec.mantissaBitsWithoutImplicit) :
    Denotes spec (Binary64.roundedNumber spec sign r t) (signed sign (r * 2 ^ t)) := by
  have hr : 0 < r := lt_of_lt_of_le (by positivity) hlow
  rw [Binary64.roundedNumber, dif_neg hr.ne']
  by_cases hlt : r < 2 ^ spec.mantissaBits
  · rw [if_pos hlt]
    refine .finite hr ?_ hleast hgreatest.le
    have hless := (Nat.log2_lt hr.ne').2 hlt
    have hmore := (Nat.le_log2 hr.ne').2 hlow
    omega
  · rw [if_neg hlt]
    obtain rfl : r = 2 ^ spec.mantissaBits := le_antisymm hhigh (not_lt.1 hlt)
    have hvalue : ((2 ^ spec.mantissaBits : ℕ) : ℚ) * 2 ^ t =
        ((2 ^ spec.mantissaBitsWithoutImplicit : ℕ) : ℚ) * 2 ^ (t + 1) := by
      rw [zpow_add₀ (by norm_num), mantissaBits_eq]
      push_cast
      ring
    rw [hvalue]
    exact .finite _ (by rw [Nat.log2_two_pow, mantissaBits_eq]) (by omega) (by omega)

/-- The rounding that the operations end with. -/
theorem denotes_roundWithAccuracy (hv : 0 < v) (hrange : InRange spec v)
    (h : Approximates (.ofMantissaAndAccuracy m accuracy) (v / 2 ^ e))
    (he : e ≤ lastExponent spec.mantissaBits v) :
    Denotes spec (roundWithAccuracy spec sign m e accuracy)
      (signed sign (rounded spec.mantissaBits v)) := by
  obtain ⟨hleast, hgreatest⟩ := hrange
  rw [abs_of_pos hv] at hgreatest
  have hscale : (0 : ℚ) < 2 ^ e := by positivity
  obtain ⟨hlow, hhigh⟩ := h.scaled_bounds
  have hlast : lastExponent spec.mantissaBits v = Int.log 2 v + 1 - spec.mantissaBits := by
    rw [lastExponent, abs_of_pos hv]
  have hbits := @mantissaBits_eq spec
  have hm : 0 < m := by
    have hone : (2 : ℚ) ^ e ≤ v := (zpow_le_iff_le_log hv).2 (by omega)
    have hlt : (1 : ℚ) < m + 1 := (mul_lt_mul_iff_left₀ hscale).1 (by linarith)
    exact_mod_cast pos_of_lt_add_left hlt
  have hlog := log_eq hm hlow hhigh
  have htarget : spec.targetExponent (totalExponent m e) = lastExponent spec.mantissaBits v := by
    rw [Format.targetExponent, totalExponent]
    omega
  obtain ⟨hatLeast, hatMost⟩ := nearest_digits_bounds mantissaBits_pos hv
  rw [Binary64.roundWithAccuracy_eq htarget h he hleast hatMost, rounded_of_pos hv]
  exact denotes_roundedNumber hatLeast hatMost hleast (by omega)

/-- A natural number times a power of two, rounded. -/
theorem denotes_round (hm : 0 < m) (hrange : InRange spec (m * 2 ^ e)) :
    Denotes spec (UnpackedFloat.round spec sign m e)
      (signed sign (rounded spec.mantissaBits (m * 2 ^ e))) := by
  have hv : (0 : ℚ) < m * 2 ^ e := by positivity
  have hlog := log_eq hm (le_refl ((m : ℚ) * 2 ^ e))
    ((mul_lt_mul_iff_left₀ (by positivity)).2 (lt_add_one _))
  have hleast := hrange.least
  have htarget : spec.targetExponent (totalExponent m e) =
      lastExponent spec.mantissaBits (m * 2 ^ e) := by
    rw [lastExponent, abs_of_pos hv] at hleast ⊢
    rw [Format.targetExponent, totalExponent]
    omega
  obtain ⟨m', e', hround, hdigits, hle⟩ := Binary64.exists_round_eq htarget
  rw [hround]
  exact denotes_roundWithAccuracy hv hrange hdigits hle

theorem InRange.neg (h : InRange spec (-v)) : InRange spec v :=
  ⟨by simpa using h.least, by simpa using h.greatest⟩

/-- An integer times a power of two, rounded. -/
theorem denotes_normalize (n : ℤ) (hrange : n ≠ 0 → InRange spec (n * 2 ^ e)) :
    Denotes spec (UnpackedFloat.normalize spec n e .positive)
      (rounded spec.mantissaBits (n * 2 ^ e)) := by
  obtain hneg | rfl | hpos := lt_trichotomy n 0
  · obtain ⟨m, rfl⟩ : ∃ m : ℕ, n = -m := ⟨n.natAbs, by omega⟩
    have hm : 0 < m := by omega
    have hvalue : ((-m : ℤ) : ℚ) * 2 ^ e = -(m * 2 ^ e) := by push_cast; ring
    have hrounded := @denotes_round spec .negative m e hm
      (InRange.neg (hvalue ▸ hrange hneg.ne))
    rw [UnpackedFloat.normalize, compare_lt_iff_lt.2 hneg, hvalue, rounded_neg]
    simpa [signed] using hrounded
  · rw [Int.cast_zero, zero_mul, rounded_zero]
    exact .zero
  · obtain ⟨m, rfl⟩ : ∃ m : ℕ, n = m := ⟨n.natAbs, by omega⟩
    have hm : 0 < m := by omega
    rw [Binary64.normalize_natCast hm]
    exact_mod_cast @denotes_round spec .positive m e hm (by exact_mod_cast hrange hpos.ne')

end Round

/-! ## The operations -/

section Operations

variable {x y : UnpackedFloat}

/-- The numbers of the format are not rounded. -/
theorem Denotes.rounded_eq (h : Denotes spec x v) : rounded spec.mantissaBits v = v := by
  cases h with
  | zero => exact rounded_zero
  | @finite sign m e hm hdigits hleast hgreatest =>
    have hless : m < 2 ^ spec.mantissaBits := (Nat.log2_lt hm.ne').1 (by omega)
    rw [rounded_signed, FloatFormat.rounded_eq hless]

/-- Digits are added to a number with a sign for a smaller exponent. -/
theorem apply_mul_zpow (sign : Sign) (m : ℕ) {e target : ℤ} (h : target ≤ e) :
    ((sign.apply (m * 2 ^ (e - target).toNat : ℕ) : ℤ) : ℚ) * 2 ^ target =
      signed sign (m * 2 ^ e) := by
  have hshift := Binary64.mul_two_pow_mul_zpow (m := m) h
  cases sign <;> simp only [Sign.apply, signed] <;> push_cast at hshift ⊢ <;> linarith

/-- The sum of two numbers is the exact sum, rounded. -/
theorem Denotes.add (hx : Denotes spec x v) (hy : Denotes spec y w)
    (hrange : v + w ≠ 0 → InRange spec (v + w)) :
    Denotes spec (UnpackedFloat.add spec x y) (rounded spec.mantissaBits (v + w)) := by
  cases hx with
  | zero =>
    rw [zero_add, hy.rounded_eq]
    cases hy with
    | zero => exact .zero
    | finite hm hdigits hleast hgreatest => exact .finite hm hdigits hleast hgreatest
  | @finite sign m e hm hdigits hleast hgreatest =>
    cases hy with
    | zero =>
      have hfinite : Denotes spec (.finite sign m e hm) (signed sign (m * 2 ^ e)) :=
        .finite hm hdigits hleast hgreatest
      rw [add_zero, hfinite.rounded_eq]
      exact hfinite
    | @finite sign' m' e' hm' =>
      have hleft : min e e' ≤ e := min_le_left _ _
      have hright : min e e' ≤ e' := min_le_right _ _
      have hsum : signed sign (m * 2 ^ e) + signed sign' (m' * 2 ^ e') =
          ((sign.apply (m * 2 ^ (e - min e e').toNat : ℕ) +
            sign'.apply (m' * 2 ^ (e' - min e e').toNat : ℕ) : ℤ) : ℚ) * 2 ^ min e e' := by
        rw [Int.cast_add, add_mul, apply_mul_zpow _ _ hleft, apply_mul_zpow _ _ hright]
      unfold UnpackedFloat.add
      dsimp only
      rw [Binary64.decreaseExponent_of_le hleft, Binary64.decreaseExponent_of_le hright]
      dsimp only
      rw [hsum] at hrange ⊢
      refine denotes_normalize _ fun hne => hrange ?_
      have hscale : (2 : ℚ) ^ min e e' ≠ 0 := by positivity
      exact mul_ne_zero (by exact_mod_cast hne) hscale

/-- The square of a number is the exact square, rounded. -/
theorem Denotes.mul_self (hx : Denotes spec x v) (hrange : v ≠ 0 → InRange spec (v * v)) :
    Denotes spec (UnpackedFloat.mul spec x x) (rounded spec.mantissaBits (v * v)) := by
  cases hx with
  | zero =>
    rw [mul_zero, rounded_zero]
    exact .zero
  | @finite sign m e hm hdigits =>
    have hv : (0 : ℚ) < m * 2 ^ e := by positivity
    have hsign : sign * sign = .positive := by cases sign <;> rfl
    have hsquare : signed sign (m * 2 ^ e) * signed sign (m * 2 ^ e) = m * 2 ^ e * (m * 2 ^ e) := by
      cases sign <;> simp [signed]
    have hrange' := hrange (by simpa using hv.ne')
    have hlog := log_eq hm (le_refl ((m : ℚ) * 2 ^ e))
      ((mul_lt_mul_iff_left₀ (by positivity)).2 (lt_add_one _))
    have hlast : e + e ≤ lastExponent spec.mantissaBits (m * 2 ^ e * (m * 2 ^ e)) := by
      have htwice : Int.log 2 ((m : ℚ) * 2 ^ e) + Int.log 2 ((m : ℚ) * 2 ^ e) ≤
          Int.log 2 ((m : ℚ) * 2 ^ e * (m * 2 ^ e)) := by
        rw [← zpow_le_iff_le_log (by positivity), zpow_add₀ (by norm_num)]
        exact mul_self_le_mul_self (by positivity) (two_zpow_log_le hv)
      rw [lastExponent, abs_of_pos (by positivity)]
      omega
    unfold UnpackedFloat.mul
    dsimp only
    rw [hsign, hsquare]
    rw [hsquare] at hrange'
    refine denotes_roundWithAccuracy (by positivity) hrange' ?_ hlast
    have hproduct : (m : ℚ) * 2 ^ e * (m * 2 ^ e) / 2 ^ (e + e) = (m * m : ℕ) := by
      rw [zpow_add₀ (by norm_num)]
      push_cast
      field_simp
    rw [hproduct]
    exact .natCast _

/-- The quotient by a positive number is the exact quotient, rounded. -/
theorem Denotes.div (hx : Denotes spec x v) (hy : Denotes spec y w) (hw : 0 < w)
    (hrange : v ≠ 0 → InRange spec (v / w)) :
    Denotes spec (UnpackedFloat.div spec x y) (rounded spec.mantissaBits (v / w)) := by
  cases hy with
  | zero => exact absurd hw (lt_irrefl _)
  | @finite sign' m' e' hm' =>
    obtain rfl := sign_eq_positive hw
    cases hx with
    | zero =>
      rw [zero_div, rounded_zero]
      exact .zero
    | @finite sign m e hm =>
      have hv : (0 : ℚ) < m * 2 ^ e / (m' * 2 ^ e') := by positivity
      have hsign : sign / Sign.positive = sign := by cases sign <;> rfl
      have hquotient : signed sign (m * 2 ^ e) / signed .positive (m' * 2 ^ e') =
          signed sign (m * 2 ^ e / (m' * 2 ^ e')) := by
        cases sign <;> simp [signed, neg_div]
      have hrange' : InRange spec (m * 2 ^ e / (m' * 2 ^ e')) := by
        have hmagnitude : (0 : ℚ) < m * 2 ^ e := by positivity
        have hsigned := hrange (by simpa using hmagnitude.ne')
        rw [hquotient] at hsigned
        cases sign with
        | positive => exact hsigned
        | negative => exact hsigned.neg
      have hlog := Binary64.le_log_div hm hm' e e'
      have hleast := hrange'.least
      rw [hquotient, rounded_signed]
      unfold UnpackedFloat.div divCore
      dsimp only
      rw [hsign, Nat.shiftLeft_eq]
      set target := min (e - e')
        (spec.targetExponent (totalExponent m e - totalExponent m' e')) with htarget
      refine denotes_roundWithAccuracy hv hrange' ?_ ?_
      · have hwhole : (m : ℚ) * 2 ^ e / (m' * 2 ^ e') / 2 ^ target =
            ((m * 2 ^ (e - e' - target).toNat : ℕ) : ℚ) / m' := by
          push_cast
          rw [← zpow_natCast, Int.toNat_of_nonneg (by omega), zpow_sub₀ (by norm_num),
            zpow_sub₀ (by norm_num)]
          field_simp
        rw [hwhole]
        exact .div _ hm'
      · rw [lastExponent, abs_of_pos hv] at hleast ⊢
        rw [Format.targetExponent, totalExponent, totalExponent] at htarget
        omega

/-- Digits with any accuracy are those of some number. -/
theorem exists_approximates (m : ℕ) (e : ℤ) (accuracy : Accuracy) :
    ∃ v : ℚ, Approximates (.ofMantissaAndAccuracy m accuracy) (v / 2 ^ e) := by
  suffices hdigits : ∃ q, Approximates (.ofMantissaAndAccuracy m accuracy) q by
    obtain ⟨q, hq⟩ := hdigits
    exact ⟨q * 2 ^ e, by rwa [mul_div_cancel_right₀ _ (by positivity)]⟩
  obtain _ | order := accuracy
  · exact ⟨m, .natCast m⟩
  · cases order with
    | lt =>
      refine ⟨m + 1 / 4, ?_, ?_, ?_⟩
      all_goals simp [ExtendedMantissa.ofMantissaAndAccuracy, Binary64.halves]
      all_goals linarith
    | eq =>
      refine ⟨m + 1 / 2, ?_, ?_, ?_⟩
      all_goals simp [ExtendedMantissa.ofMantissaAndAccuracy, Binary64.halves]
      all_goals linarith
    | gt =>
      refine ⟨m + 3 / 4, ?_, ?_, ?_⟩
      all_goals simp [ExtendedMantissa.ofMantissaAndAccuracy, Binary64.halves]
      all_goals linarith

/-- A square root has half the digits. -/
theorem log_div_two {n : ℕ} (hn : 0 < n) (t : ℤ) :
    Int.log 2 ((n : ℚ) * 2 ^ (2 * t)) / 2 = n.sqrt.log2 + t := by
  have hroot : 0 < n.sqrt := Nat.sqrt_pos.2 hn
  have hv : (0 : ℚ) < n * 2 ^ (2 * t) := by positivity
  have hlow : 2 ^ (2 * n.sqrt.log2) ≤ n :=
    calc 2 ^ (2 * n.sqrt.log2) = 2 ^ n.sqrt.log2 * 2 ^ n.sqrt.log2 := by rw [two_mul, pow_add]
      _ ≤ n.sqrt * n.sqrt :=
        Nat.mul_self_le_mul_self (Nat.log2_self_le hroot.ne')
      _ ≤ n := Nat.sqrt_le n
  have hhigh : n < 2 ^ (2 * (n.sqrt.log2 + 1)) :=
    calc n < (n.sqrt + 1) * (n.sqrt + 1) := Nat.lt_succ_sqrt n
      _ ≤ 2 ^ (n.sqrt.log2 + 1) * 2 ^ (n.sqrt.log2 + 1) :=
        Nat.mul_self_le_mul_self Nat.lt_log2_self
      _ = 2 ^ (2 * (n.sqrt.log2 + 1)) := by rw [← pow_add, two_mul]
  have hatLeast : 2 * ((n.sqrt.log2 : ℤ) + t) ≤ Int.log 2 ((n : ℚ) * 2 ^ (2 * t)) := by
    rw [← zpow_le_iff_le_log hv, mul_add, zpow_add₀ (by norm_num)]
    gcongr
    exact_mod_cast hlow
  have hbelow : Int.log 2 ((n : ℚ) * 2 ^ (2 * t)) < 2 * ((n.sqrt.log2 : ℤ) + 1 + t) := by
    rw [← lt_zpow_iff_log_lt hv, mul_add, zpow_add₀ (by norm_num)]
    gcongr
    exact_mod_cast hhigh
  omega

/-- The square root of a positive number lies between the powers of two around it. -/
theorem Denotes.sqrt (hx : Denotes spec x v) (hv : 0 < v)
    (hleast : spec.minExponent ≤ Int.log 2 v / 2 + 1 - spec.mantissaBits)
    (hgreatest : Int.log 2 v / 2 < spec.exponentBias) :
    ∃ w, Denotes spec (UnpackedFloat.sqrt spec x) w ∧
      2 ^ (Int.log 2 v / 2) ≤ w ∧ w ≤ 2 ^ (Int.log 2 v / 2 + 1) := by
  cases hx with
  | zero => exact absurd hv (lt_irrefl _)
  | @finite sign m e hm =>
    obtain rfl := sign_eq_positive hv
    have hlog := log_eq hm (le_refl ((m : ℚ) * 2 ^ e))
      ((mul_lt_mul_iff_left₀ (by positivity)).2 (lt_add_one _))
    change spec.minExponent ≤ Int.log 2 ((m : ℚ) * 2 ^ e) / 2 + 1 - spec.mantissaBits at hleast
    change Int.log 2 ((m : ℚ) * 2 ^ e) / 2 < spec.exponentBias at hgreatest
    change ∃ w, _ ∧ (2 : ℚ) ^ (Int.log 2 ((m : ℚ) * 2 ^ e) / 2) ≤ w ∧
      w ≤ 2 ^ (Int.log 2 ((m : ℚ) * 2 ^ e) / 2 + 1)
    unfold UnpackedFloat.sqrt sqrtCore
    dsimp only
    have hdiv : ∀ n : ℤ, n.ediv 2 = n / 2 := fun _ => rfl
    rw [Nat.shiftLeft_eq, hdiv, hdiv]
    set target := min (e / 2) (spec.targetExponent ((totalExponent m e + 1) / 2)) with htarget
    have hbelow : 2 * target ≤ e := by omega
    have hvalue := Binary64.mul_two_pow_mul_zpow (m := m) hbelow
    set n := m * 2 ^ (e - 2 * target).toNat
    have hroot : 0 < n.sqrt := Nat.sqrt_pos.2 (by positivity)
    have hhalf := log_div_two (by positivity : 0 < n) target
    rw [hvalue] at hhalf
    generalize (if n - n.sqrt * n.sqrt = 0 then Accuracy.exact
      else .inexact (if n - n.sqrt * n.sqrt ≤ n.sqrt then .lt else .gt)) = accuracy
    obtain ⟨u, hdigits⟩ := exists_approximates n.sqrt target accuracy
    obtain ⟨hlow, hhigh⟩ := hdigits.scaled_bounds
    have hu : 0 < u := lt_of_lt_of_le (by positivity) hlow
    have hlogu : Int.log 2 u = Int.log 2 ((m : ℚ) * 2 ^ e) / 2 := by
      rw [hhalf, log_eq hroot hlow hhigh]
    have hlast : lastExponent spec.mantissaBits u =
        Int.log 2 ((m : ℚ) * 2 ^ e) / 2 + 1 - spec.mantissaBits := by
      rw [lastExponent, abs_of_pos hu, hlogu]
    have hrange : InRange spec u := ⟨hlast ▸ hleast, by rwa [abs_of_pos hu, hlogu]⟩
    refine ⟨rounded spec.mantissaBits u, denotes_roundWithAccuracy hu hrange hdigits ?_, ?_⟩
    · rw [hlast]
      rw [Format.targetExponent, totalExponent] at htarget
      omega
    · rw [← hlogu]
      exact rounded_bounds mantissaBits_pos hu

end Operations

end CodeIndex.FloatFormat
