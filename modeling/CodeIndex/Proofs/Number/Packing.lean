import CodeIndex.Proofs.Number.Rounding

/-!
# The rounding of the floating point operations

The operations on floating point numbers take the bits of their arguments apart, compute digits
with a note on what is cut off, and put the bits of the result together.  This module says what each
of these steps does to the number that the digits stand for.

## Main definitions

* `Approximates` relates digits with two further bits to the number that they were cut off from.

## Main results

* `toNat_pack_roundWithAccuracy` and `toNat_pack_round`: what the operations end with is
  `roundedBits`.
* `unpack_finite`: the digits of a number are those of its `magnitude`.
* `toNat_pack_unpack`: a number that is taken apart is put together again.
-/

namespace CodeIndex.Binary64

open Float.Model Float.Model.UnpackedFloat

/-! ## Packing and unpacking -/

theorem toNat_packComponents (exponent : BitVec 11) (mantissa : BitVec 52) :
    (packComponents .binary64 .positive exponent mantissa).toNat =
      exponent.toNat * 2 ^ 52 + mantissa.toNat := by
  have hmantissa : mantissa.toNat < 2 ^ 52 := mantissa.isLt
  rw [packComponents, Sign.toBitVec, BitVec.toNat_append, BitVec.toNat_append,
    ← Nat.shiftLeft_add_eq_or_of_lt hmantissa, Nat.shiftLeft_eq]
  simp

/-- The bits of a number whose digits end at its spacing. -/
theorem toNat_pack_finite {m : ℕ} {e : ℤ} (hpos : 0 < m) (hm : m < 2 ^ 53) (he : -1074 ≤ e)
    (hnormal : -1074 < e → 2 ^ 52 ≤ m) :
    (UnpackedFloat.pack .binary64 (.finite .positive m e hpos)).toNat =
      min infinityBits ((e + 1074).toNat * 2 ^ 52 + m) := by
  have hbits : m.log2 < 53 := (Nat.log2_lt hpos.ne').2 hm
  have hleast : 52 ≤ m.log2 ↔ 2 ^ 52 ≤ m := Nat.le_log2 hpos.ne'
  have hbias : e + Format.binary64.exponentBias + (Format.binary64.mantissaBitsWithoutImplicit : ℤ)
      = e + 1075 := by
    simp [Format.exponentBias]
    omega
  have hdigits : Format.binary64.mantissaBits = 53 := rfl
  unfold UnpackedFloat.pack
  dsimp only
  rw [hbias, hdigits]
  split_ifs with hlarge hfull
  · rw [packedInfinity, toNat_packComponents]
    simp [infinityBits]
    omega
  · rw [toNat_packComponents]
    simp [infinityBits]
    omega
  · rw [toNat_packComponents]
    simp [infinityBits]
    omega

theorem toNat_pack_zero : (UnpackedFloat.pack .binary64 (.zero .positive)).toNat = 0 := by
  change (packedZero .binary64 .positive).toNat = 0
  rw [packedZero, toNat_packComponents]
  rfl

theorem toNat_unpackMantissa (b : BitVec 64) :
    (@unpackMantissa .binary64 b).toNat = b.toNat % 2 ^ 52 := by
  simp [unpackMantissa]

theorem toNat_unpackExponent (b : BitVec 64) :
    (@unpackExponent .binary64 b).toNat = b.toNat / 2 ^ 52 % 2 ^ 11 := by
  simp [unpackExponent, Nat.shiftRight_eq_div_pow]

theorem ofBitVec_unpackSign (b : BitVec 64) :
    Sign.ofBitVec (@unpackSign .binary64 b) =
      if b.toNat < 2 ^ 63 then .positive else .negative := by
  have hsign : @unpackSign .binary64 b = 0#1 ↔ b.toNat < 2 ^ 63 := by
    have hlt := b.isLt
    rw [← BitVec.toNat_inj]
    unfold unpackSign
    simp [Nat.shiftRight_eq_div_pow]
    omega
  simp only [Sign.ofBitVec, hsign]

theorem unpackExponent_eq_iff (b : BitVec 64) (exponent : BitVec 11) :
    @unpackExponent .binary64 b = exponent ↔ b.toNat / 2 ^ 52 % 2 ^ 11 = exponent.toNat := by
  rw [← BitVec.toNat_inj, toNat_unpackExponent]

theorem unpackMantissa_eq_zero_iff (b : BitVec 64) :
    @unpackMantissa .binary64 b = 0#52 ↔ b.toNat % 2 ^ 52 = 0 := by
  rw [← BitVec.toNat_inj, toNat_unpackMantissa]
  rfl

/-- The digits of a number that has them all, the first of which is not stored. -/
theorem toNat_implicit (b : BitVec 64) :
    (1#1 ++ @unpackMantissa .binary64 b).toNat = 2 ^ 52 + b.toNat % 2 ^ 52 := by
  have hmantissa := (@unpackMantissa .binary64 b).isLt
  rw [BitVec.toNat_append, ← Nat.shiftLeft_add_eq_or_of_lt hmantissa, toNat_unpackMantissa,
    Nat.shiftLeft_eq]
  rfl

/-- The bits of a positive number, taken apart. -/
theorem unpack_finite {b : BitVec 64} (hpos : 0 < b.toNat) (hlt : b.toNat < infinityBits) :
    ∃ hdigits, UnpackedFloat.unpack .binary64 b =
      .finite .positive (digits b.toNat) ((doublings b.toNat : ℤ) - 1074) hdigits := by
  unfold infinityBits at hlt
  have hsign : Sign.ofBitVec (@unpackSign .binary64 b) = .positive := by
    rw [ofBitVec_unpackSign, if_pos (by omega)]
  have hfinite : @unpackExponent .binary64 b ≠ -1#11 := by
    rw [Ne, unpackExponent_eq_iff]
    simp
    omega
  have hbias : (Format.binary64.exponentBias : ℤ) +
      (Format.binary64.mantissaBitsWithoutImplicit : ℤ) = 1075 := by simp [Format.exponentBias]
  unfold UnpackedFloat.unpack
  dsimp only
  rw [hsign, if_neg hfinite]
  by_cases hsmall : @unpackExponent .binary64 b = 0#11
  · rw [if_pos hsmall]
    rw [unpackExponent_eq_iff, BitVec.toNat_zero] at hsmall
    have hmantissa : @unpackMantissa .binary64 b ≠ 0#52 := by
      rw [Ne, unpackMantissa_eq_zero_iff]
      omega
    rw [dif_neg hmantissa]
    refine ⟨by unfold digits doublings; omega, ?_⟩
    rw [finite.injEq, toNat_unpackMantissa, toNat_unpackExponent, hbias]
    unfold digits doublings
    exact ⟨rfl, by omega, by omega⟩
  · rw [if_neg hsmall]
    rw [unpackExponent_eq_iff, BitVec.toNat_zero] at hsmall
    refine ⟨by unfold digits doublings; omega, ?_⟩
    rw [finite.injEq, toNat_implicit, toNat_unpackExponent, hbias]
    unfold digits doublings
    exact ⟨rfl, by omega, by omega⟩

theorem unpack_zero : UnpackedFloat.unpack .binary64 0 = .zero .positive := by
  rfl

theorem unpack_infinity {b : BitVec 64} (h : b.toNat = infinityBits) :
    UnpackedFloat.unpack .binary64 b = .infinity .positive := by
  obtain rfl : b = 0x7FF0000000000000#64 := BitVec.toNat_inj.1 h
  rfl

/-- A number from zero to infinity that is taken apart is put together again. -/
theorem toNat_pack_unpack {b : BitVec 64} (h : b.toNat ≤ infinityBits) :
    (UnpackedFloat.pack .binary64 (UnpackedFloat.unpack .binary64 b)).toNat = b.toNat := by
  obtain hzero | hpos := b.toNat.eq_zero_or_pos
  · obtain rfl : b = 0 := BitVec.toNat_inj.1 hzero
    exact toNat_pack_zero
  · obtain hlt | hinfinite := h.lt_or_eq
    · have hdoublings : ((doublings b.toNat : ℤ) - 1074 + 1074).toNat = doublings b.toNat := by
        omega
      obtain ⟨hdigits, hunpack⟩ := unpack_finite hpos hlt
      rw [hunpack, toNat_pack_finite hdigits (digits_lt _) (by omega)
        fun hnormal => le_digits (by omega), hdoublings, doublings_add_digits, min_eq_right h]
    · rw [unpack_infinity hinfinite, hinfinite]
      rfl

/-- A finite number does not have the exponent of the infinities. -/
theorem exponent_ne_of_isFinite {b : BitVec 64}
    (h : (UnpackedFloat.unpack .binary64 b).isFinite = true) :
    b.toNat / 2 ^ 52 % 2 ^ 11 ≠ 2047 := by
  intro hexponent
  have hspecial : @unpackExponent .binary64 b = -1#11 := by
    rw [unpackExponent_eq_iff, hexponent]
    rfl
  unfold UnpackedFloat.unpack at h
  dsimp only at h
  rw [if_pos hspecial] at h
  by_cases hmantissa : @unpackMantissa .binary64 b = 0#52
  · rw [if_pos hmantissa] at h
    exact Bool.false_ne_true h
  · rw [if_neg hmantissa] at h
    exact Bool.false_ne_true h

/-- The finite numbers with the negative sign. -/
theorem unpack_negative {b : BitVec 64} (h : 2 ^ 63 ≤ b.toNat)
    (hfinite : (UnpackedFloat.unpack .binary64 b).isFinite = true) :
    UnpackedFloat.unpack .binary64 b = .zero .negative ∨
      ∃ m e hm, UnpackedFloat.unpack .binary64 b = .finite .negative m e hm := by
  have hsign : Sign.ofBitVec (@unpackSign .binary64 b) = .negative := by
    rw [ofBitVec_unpackSign, if_neg (by omega)]
  have hregular : @unpackExponent .binary64 b ≠ -1#11 := by
    rw [Ne, unpackExponent_eq_iff]
    exact exponent_ne_of_isFinite hfinite
  unfold UnpackedFloat.unpack
  dsimp only
  rw [hsign, if_neg hregular]
  by_cases hsubnormal : @unpackExponent .binary64 b = 0#11
  · rw [if_pos hsubnormal]
    by_cases hzero : @unpackMantissa .binary64 b = 0#52
    · rw [dif_pos hzero]
      exact .inl rfl
    · rw [dif_neg hzero]
      refine .inr ⟨_, _, Nat.pos_of_ne_zero fun hnat => hzero ?_, rfl⟩
      exact BitVec.toNat_inj.1 hnat
  · rw [if_neg hsubnormal]
    have himplicit : 0 < (1#1 ++ @unpackMantissa .binary64 b).toNat := by
      rw [toNat_implicit]
      positivity
    exact .inr ⟨_, _, himplicit, rfl⟩

/-! ## The rounding of the operations -/

/-- An extended mantissa in units of a half, without what is below a half. -/
def halves (em : ExtendedMantissa) : ℕ := 2 * em.mantissa + em.roundBit.toNat

/-- An extended mantissa stands for a number: it has the digits of the number down to the half, and
knows whether others follow. -/
structure Approximates (em : ExtendedMantissa) (q : ℚ) : Prop where
  low : halves em ≤ 2 * q
  high : 2 * q < halves em + 1
  sticky : em.stickyBit = false ↔ 2 * q = halves em

namespace Approximates

variable {em : ExtendedMantissa} {q : ℚ}

theorem floor_eq (h : Approximates em q) : ⌊2 * q⌋₊ = halves em :=
  (Nat.floor_eq_iff ((Nat.cast_nonneg _).trans h.low)).2 ⟨h.low, h.high⟩

/-- The digits tell how the number is rounded. -/
theorem roundedMantissa_eq (h : Approximates em q) : em.roundedMantissa = nearest q := by
  have hfloor := h.floor_eq
  have hsticky := h.sticky
  obtain ⟨m, roundBit, stickyBit⟩ := em
  unfold nearest
  dsimp only
  rw [hfloor]
  cases roundBit <;> cases stickyBit <;>
    simp_all [halves, ExtendedMantissa.roundedMantissa, ExtendedMantissa.accuracy,
      Accuracy.roundToNearestEven] <;> omega

theorem shiftRightOne (h : Approximates em q) : Approximates em.shiftRightOne (q / 2) := by
  obtain ⟨hlow, hhigh, hsticky⟩ := h
  obtain ⟨m, roundBit, stickyBit⟩ := em
  have hhalves : halves (ExtendedMantissa.shiftRightOne ⟨m, roundBit, stickyBit⟩) = m := by
    have hbit : (m % 2 != 0).toNat = m % 2 := by
      obtain heven | hodd := Nat.mod_two_eq_zero_or_one m <;> simp [*]
    simp only [halves, ExtendedMantissa.shiftRightOne, hbit]
    omega
  have hdouble : 2 * (q / 2) = q := by ring
  simp only [halves] at hlow hhigh hsticky
  push_cast at hlow hhigh hsticky
  -- The bit that was the half counts among the digits below it.
  cases roundBit with
  | false =>
    simp only [Bool.toNat_false, Nat.cast_zero, add_zero] at hlow hhigh hsticky
    refine ⟨?_, ?_, ?_⟩ <;> rw [hhalves, hdouble]
    · linarith
    · linarith
    · simp only [ExtendedMantissa.shiftRightOne, Bool.false_or, hsticky]
      constructor <;> intro heq <;> linarith
  | true =>
    simp only [Bool.toNat_true, Nat.cast_one] at hlow hhigh hsticky
    refine ⟨?_, ?_, ?_⟩ <;> rw [hhalves, hdouble]
    · linarith
    · linarith
    · simp only [ExtendedMantissa.shiftRightOne, Bool.true_or, Bool.true_eq_false, false_iff]
      intro heq
      linarith

theorem shiftRight (h : Approximates em q) (count : ℕ) :
    Approximates (em >>> count) (q / 2 ^ count) := by
  change Approximates (count.repeat ExtendedMantissa.shiftRightOne em) _
  induction count with
  | zero => simpa [Nat.repeat] using h
  | succ count ih =>
    rw [Nat.repeat, pow_succ, ← div_div]
    exact ih.shiftRightOne

theorem natCast (n : ℕ) : Approximates (.ofMantissaAndAccuracy n .exact) n := by
  refine ⟨?_, ?_, ?_⟩ <;> simp [ExtendedMantissa.ofMantissaAndAccuracy, halves]

/-- A quotient of natural numbers is given by its whole part and its remainder. -/
theorem div (n : ℕ) {d : ℕ} (hd : 0 < d) :
    Approximates (.ofMantissaAndAccuracy (n / d) (accuracyOfFraction (n % d) d)) ((n : ℚ) / d) := by
  have hdpos : (0 : ℚ) < d := by exact_mod_cast hd
  have hquotient : (n : ℚ) / d = (n / d : ℕ) + ((n % d : ℕ) : ℚ) / d := by
    rw [eq_comm, ← mul_right_inj' hdpos.ne', mul_add, mul_div_cancel₀ _ hdpos.ne',
      mul_div_cancel₀ _ hdpos.ne']
    exact_mod_cast Nat.div_add_mod n d
  have hless : ((n % d : ℕ) : ℚ) / d < 1 :=
    (div_lt_one hdpos).2 (by exact_mod_cast Nat.mod_lt n hd)
  rw [hquotient, accuracyOfFraction]
  split_ifs with hzero
  · simpa [hzero] using natCast (n / d)
  · have hpos : 0 < ((n % d : ℕ) : ℚ) / d :=
      div_pos (by exact_mod_cast Nat.pos_of_ne_zero hzero) hdpos
    cases hcompare : compare (2 * (n % d)) d with
    | lt =>
      have hhalf : 2 * (((n % d : ℕ) : ℚ) / d) < 1 := by
        rw [← mul_div_assoc, div_lt_one hdpos]
        exact_mod_cast Nat.compare_eq_lt.1 hcompare
      refine ⟨?_, ?_, ?_⟩ <;> simp [ExtendedMantissa.ofMantissaAndAccuracy, halves]
      · linarith
      · linarith
      · exact ⟨hzero, hd.ne'⟩
    | eq =>
      have hhalf : 2 * (((n % d : ℕ) : ℚ) / d) = 1 := by
        rw [← mul_div_assoc, div_eq_one_iff_eq hdpos.ne']
        exact_mod_cast Nat.compare_eq_eq.1 hcompare
      refine ⟨?_, ?_, ?_⟩ <;> simp [ExtendedMantissa.ofMantissaAndAccuracy, halves] <;> linarith
    | gt =>
      have hhalf : 1 < 2 * (((n % d : ℕ) : ℚ) / d) := by
        rw [← mul_div_assoc, one_lt_div hdpos]
        exact_mod_cast Nat.compare_eq_gt.1 hcompare
      refine ⟨?_, ?_, ?_⟩ <;> simp [ExtendedMantissa.ofMantissaAndAccuracy, halves] <;> linarith

end Approximates

theorem mantissa_ofMantissaAndAccuracy (m : ℕ) (accuracy : Accuracy) :
    (ExtendedMantissa.ofMantissaAndAccuracy m accuracy).mantissa = m := by
  unfold ExtendedMantissa.ofMantissaAndAccuracy
  split <;> rfl

/-- The digits that are kept are the whole part of a number. -/
theorem Approximates.mantissa_bounds {m : ℕ} {accuracy : Accuracy} {q : ℚ}
    (h : Approximates (.ofMantissaAndAccuracy m accuracy) q) : m ≤ q ∧ q < m + 1 := by
  have hlow := h.low
  have hhigh := h.high
  simp only [halves, mantissa_ofMantissaAndAccuracy] at hlow hhigh
  push_cast at hlow hhigh
  have hbit :
      ((ExtendedMantissa.ofMantissaAndAccuracy m accuracy).roundBit.toNat : ℚ) ≤ 1 := by
    exact_mod_cast Bool.toNat_le _
  have hnonneg := Nat.cast_nonneg (α := ℚ)
    (ExtendedMantissa.ofMantissaAndAccuracy m accuracy).roundBit.toNat
  constructor <;> linarith

theorem Approximates.scaled_bounds {m : ℕ} {e : ℤ} {accuracy : Accuracy} {v : ℚ}
    (h : Approximates (.ofMantissaAndAccuracy m accuracy) (v / 2 ^ e)) :
    (m : ℚ) * 2 ^ e ≤ v ∧ v < (m + 1) * 2 ^ e := by
  have hscale : (0 : ℚ) < 2 ^ e := by positivity
  exact ⟨(le_div_iff₀ hscale).1 h.mantissa_bounds.1, (div_lt_iff₀ hscale).1 h.mantissa_bounds.2⟩

theorem targetExponent_binary64 (total : ℤ) :
    Format.binary64.targetExponent total = max (total - 53) (-1074) := by
  have hdigits : Format.binary64.mantissaBits = 53 := rfl
  simp [Format.targetExponent, hdigits, Format.minExponent]

section Round

variable {m : ℕ} {e : ℤ} {accuracy : Accuracy} {v : ℚ}

/-- The exponent that the operations round to is the spacing. -/
theorem targetExponent_eq (hv : 0 ≤ v)
    (h : Approximates (.ofMantissaAndAccuracy m accuracy) (v / 2 ^ e)) (he : e ≤ spacing v) :
    Format.binary64.targetExponent (totalExponent m e) = spacing v := by
  obtain ⟨hm, hm'⟩ := h.scaled_bounds
  rw [targetExponent_binary64, totalExponent]
  obtain rfl | hpos := m.eq_zero_or_pos
  · have hspacing : spacing v = -1074 := by
      obtain rfl | hvpos := hv.eq_or_lt
      · simp [spacing]
      · have hlog : Int.log 2 v < e := by
          rw [← Int.lt_zpow_iff_log_lt (by norm_num) hvpos]
          simpa using hm'
        rw [spacing, if_neg hvpos.ne'] at he ⊢
        omega
    simp
    omega
  · have hlog := log_eq hpos hm hm'
    have hvpos : 0 < v := lt_of_lt_of_le (by positivity) hm
    rw [spacing, if_neg hvpos.ne', hlog]
    omega

/-- Once the digits are rounded, all that rounding again does is to divide the next power of two by
two. -/
theorem shiftToTargetExponent_exact {spec : Format} {r : ℕ} {t : ℤ}
    (hr : r ≤ 2 ^ spec.mantissaBits) (ht : spec.minExponent ≤ t) :
    shiftToTargetExponent spec r t .exact =
      if r < 2 ^ spec.mantissaBits then (⟨r, false, false⟩, t)
      else (⟨2 ^ spec.mantissaBitsWithoutImplicit, false, false⟩, t + 1) := by
  have hbits : spec.mantissaBits = spec.mantissaBitsWithoutImplicit + 1 := Nat.add_comm _ _
  unfold shiftToTargetExponent shiftToExponent
  rw [Format.targetExponent, totalExponent]
  dsimp only
  split_ifs with hlt
  · have hlog : r.log2 < spec.mantissaBits := by
      obtain rfl | hpos := r.eq_zero_or_pos
      · simp [hbits]
      · exact (Nat.log2_lt hpos.ne').2 hlt
    have hshift :
        (max ((r.log2 : ℤ) + 1 + t - spec.mantissaBits) spec.minExponent - t).toNat = 0 := by
      omega
    rw [hshift]
    simp [ExtendedMantissa.ofMantissaAndAccuracy, HShiftRight.hShiftRight, Nat.repeat]
  · obtain rfl : r = 2 ^ spec.mantissaBits := by omega
    have hshift : (max (((2 ^ spec.mantissaBits).log2 : ℤ) + 1 + t - spec.mantissaBits)
        spec.minExponent - t).toNat = 1 := by
      rw [Nat.log2_two_pow]
      omega
    rw [hshift, hbits, Nat.pow_succ]
    simp [ExtendedMantissa.ofMantissaAndAccuracy, HShiftRight.hShiftRight, Nat.repeat,
      ExtendedMantissa.shiftRightOne]

/-- Rounded digits and their exponent as a number.  Digits that were rounded up to the next power of
two lose the last of them. -/
def roundedNumber (spec : Format) (sign : Sign) (r : ℕ) (t : ℤ) : UnpackedFloat :=
  if hzero : r = 0 then .zero sign
  else if r < 2 ^ spec.mantissaBits then .finite sign r t (Nat.pos_of_ne_zero hzero)
  else .finite sign (2 ^ spec.mantissaBitsWithoutImplicit) (t + 1) (Nat.two_pow_pos _)

/-- The rounding that the operations on floating point numbers end with. -/
theorem roundWithAccuracy_eq {spec : Format} {sign : Sign} {t : ℤ}
    (htarget : spec.targetExponent (totalExponent m e) = t)
    (h : Approximates (.ofMantissaAndAccuracy m accuracy) (v / 2 ^ e)) (he : e ≤ t)
    (hleast : spec.minExponent ≤ t) (hupper : nearest (v / 2 ^ t) ≤ 2 ^ spec.mantissaBits) :
    roundWithAccuracy spec sign m e accuracy =
      roundedNumber spec sign (nearest (v / 2 ^ t)) t := by
  have hdigits : (ExtendedMantissa.ofMantissaAndAccuracy m accuracy >>>
      (t - e).toNat).roundedMantissa = nearest (v / 2 ^ t) := by
    have hscale : v / 2 ^ t = v / 2 ^ e / 2 ^ (t - e).toNat := by
      rw [div_div, ← zpow_natCast, ← zpow_add₀ (by norm_num), Int.toNat_of_nonneg (by omega),
        add_sub_cancel]
    rw [hscale]
    exact (h.shiftRight _).roundedMantissa_eq
  have hexponent : e + ((t - e).toNat : ℤ) = t := by omega
  unfold roundWithAccuracy roundedNumber
  rw [shiftToTargetExponent, htarget, shiftToExponent]
  dsimp only
  rw [hdigits, hexponent, shiftToTargetExponent_exact hupper hleast]
  generalize nearest (v / 2 ^ t) = r at *
  obtain hlt | rfl := hupper.lt_or_eq
  · rw [if_pos hlt]
    by_cases hzero : r = 0
    · rw [dif_pos hzero, dif_pos hzero]
    · rw [dif_neg hzero, dif_neg hzero, if_pos hlt]
  · have hpositive := (Nat.two_pow_pos spec.mantissaBits).ne'
    have hless := (Nat.two_pow_pos spec.mantissaBitsWithoutImplicit).ne'
    rw [if_neg (lt_irrefl _), dif_neg hless, dif_neg hpositive, if_neg (lt_irrefl _)]

theorem toNat_pack_roundWithAccuracy (hv : 0 ≤ v)
    (h : Approximates (.ofMantissaAndAccuracy m accuracy) (v / 2 ^ e)) (he : e ≤ spacing v) :
    (UnpackedFloat.pack .binary64
      (roundWithAccuracy .binary64 .positive m e accuracy)).toNat = roundedBits v := by
  have hbelow := neg_le_spacing v
  have hupper := nearest_div_spacing_le hv
  have hlower := le_nearest_div_spacing hv
  rw [roundWithAccuracy_eq (targetExponent_eq hv h he) h he hbelow hupper, roundedNumber,
    roundedBits]
  generalize nearest (v / 2 ^ spacing v) = r at *
  by_cases hzero : r = 0
  · have hspacing : spacing v = -1074 := by omega
    rw [dif_pos hzero, toNat_pack_zero, hzero, hspacing]
    simp
  by_cases hlt : r < 2 ^ Format.binary64.mantissaBits
  · rw [dif_neg hzero, if_pos hlt]
    exact toNat_pack_finite _ hlt hbelow hlower
  · rw [dif_neg hzero, if_neg hlt]
    have hcarry : r = 2 ^ 53 := le_antisymm hupper (not_lt.1 hlt)
    rw [toNat_pack_finite _ (by norm_num) (by omega) (fun _ => le_rfl), hcarry]
    simp
    omega

/-- Digits are added at the end for a smaller exponent. -/
theorem mul_two_pow_mul_zpow {target : ℤ} (h : target ≤ e) :
    ((m * 2 ^ (e - target).toNat : ℕ) : ℚ) * 2 ^ target = m * 2 ^ e := by
  push_cast
  rw [mul_assoc, ← zpow_natCast, ← zpow_add₀ (by norm_num), Int.toNat_of_nonneg (by omega),
    sub_add_cancel]

theorem decreaseExponent_of_le {target : ℤ} (h : target ≤ e) :
    decreaseExponent m e target = (m * 2 ^ (e - target).toNat, target) := by
  rw [decreaseExponent, Nat.shiftLeft_eq]
  exact Prod.ext rfl (by dsimp only; omega)

/-- Rounding a natural number times a power of two is the rounding of exact digits: digits are added
down to the exponent that is rounded to, if they do not reach it. -/
theorem exists_round_eq {spec : Format} {sign : Sign} {t : ℤ}
    (htarget : spec.targetExponent (totalExponent m e) = t) :
    ∃ m' e', UnpackedFloat.round spec sign m e = roundWithAccuracy spec sign m' e' .exact ∧
      Approximates (.ofMantissaAndAccuracy m' .exact) ((m : ℚ) * 2 ^ e / 2 ^ e') ∧ e' ≤ t := by
  unfold UnpackedFloat.round
  dsimp only
  rw [htarget]
  obtain hle | hlt := le_or_gt t e
  · rw [decreaseExponent_of_le hle]
    refine ⟨_, _, rfl, ?_, le_rfl⟩
    rw [← mul_two_pow_mul_zpow hle, mul_div_cancel_right₀ _ (by positivity)]
    exact .natCast _
  · have hshift : (e - t).toNat = 0 := by omega
    rw [decreaseExponent, hshift]
    simp only [Nat.shiftLeft_zero, Int.natCast_zero, Int.sub_zero]
    refine ⟨_, _, rfl, ?_, hlt.le⟩
    rw [mul_div_cancel_right₀ _ (by positivity)]
    exact .natCast m

/-- An integer times a power of two, rounded. -/
theorem toNat_pack_round (hm : 0 < m) :
    (UnpackedFloat.pack .binary64 (UnpackedFloat.round .binary64 .positive m e)).toNat =
      roundedBits (m * 2 ^ e) := by
  have hlog := log_eq hm (le_refl ((m : ℚ) * 2 ^ e))
    ((mul_lt_mul_iff_left₀ (by positivity)).2 (lt_add_one _))
  have hne : (m : ℚ) * 2 ^ e ≠ 0 := by positivity
  have htarget : Format.binary64.targetExponent (totalExponent m e) = spacing (m * 2 ^ e) := by
    rw [targetExponent_binary64, totalExponent, spacing, if_neg hne, hlog]
    omega
  obtain ⟨m', e', hround, hdigits, hle⟩ := exists_round_eq htarget
  rw [hround]
  exact toNat_pack_roundWithAccuracy (by positivity) hdigits hle

theorem normalize_natCast {spec : Format} (hm : 0 < m) (zeroSign : Sign) :
    UnpackedFloat.normalize spec (m : ℤ) e zeroSign =
      UnpackedFloat.round spec .positive m e := by
  have hcompare : compare (m : ℤ) 0 = .gt := by
    rw [compare_gt_iff_gt]
    exact_mod_cast hm
  rw [UnpackedFloat.normalize, hcompare]
  rfl

end Round

end CodeIndex.Binary64
