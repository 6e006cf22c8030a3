import CodeIndex.Proofs.Number.Packing

/-!
# The order of floating point sums and quotients

Sums and quotients of floating point numbers are rounded, but they keep the order: a sum grows with
its summands, and a quotient shrinks as the divisor grows.  For numbers that are not negative the
order is that of the bits, so each operation is described by the bits of its result.

## Main definitions

* `Unsigned` are the numbers from zero to infinity, the negative zero and NaN not among them.

## Main results

* `bits_add`, `bits_div` and `bits_ofNat`: the operations round the exact result.
* `bits_add_mono`, `bits_le_add`, `bits_div_anti` and `bits_ofNat_mono`: the order that follows.
* `le_of_bits_le`: the order of the bits is the order of the numbers.
-/

namespace CodeIndex.Binary64

open Float.Model Float.Model.UnpackedFloat

/-- The bits of a floating point number as a natural number. -/
def bits (x : Float) : ℕ := x.toBits.toNat

/-- A number between the positive zero and the positive infinity, or one of them. -/
def Unsigned (x : Float) : Prop := bits x ≤ infinityBits

theorem bits_injective : Function.Injective bits := by
  rintro ⟨⟨b, hb⟩⟩ ⟨⟨b', hb'⟩⟩ h
  obtain rfl : b = b' := UInt64.toNat_inj.1 h
  rfl

theorem Unsigned.toNat_pack_unpack {x : Float} (h : Unsigned x) :
    (UnpackedFloat.pack .binary64 x.toModel.unpack).toNat = bits x :=
  Binary64.toNat_pack_unpack h

/-- Bits below those of infinity are kept by the number that is made of them. -/
theorem bits_ofBits {b : UInt64} (h : b.toNat < infinityBits) :
    bits (Float.ofBits b) = b.toNat :=
  toNat_pack_unpack h.le

section Unpacked

variable {x : Float}

theorem unpack_of_bits_eq_zero (h : bits x = 0) : x.toModel.unpack = .zero .positive := by
  have hbits : x.toModel.toBits.toBitVec = 0 := BitVec.toNat_inj.1 h
  rw [Float.Model.unpack, hbits, unpack_zero]

theorem unpack_of_bits_lt (hpos : 0 < bits x) (hlt : bits x < infinityBits) :
    ∃ hdigits, x.toModel.unpack =
      .finite .positive (digits (bits x)) ((doublings (bits x) : ℤ) - 1074) hdigits :=
  unpack_finite hpos hlt

theorem unpack_of_bits_eq_infinityBits (h : bits x = infinityBits) :
    x.toModel.unpack = .infinity .positive :=
  unpack_infinity h

/-- The kinds of unsigned numbers, and what they are unpacked to. -/
theorem Unsigned.cases (h : Unsigned x) :
    (bits x = 0 ∧ x.toModel.unpack = .zero .positive) ∨
    (bits x < infinityBits ∧ ∃ hdigits, x.toModel.unpack =
      .finite .positive (digits (bits x)) ((doublings (bits x) : ℤ) - 1074) hdigits) ∨
    (bits x = infinityBits ∧ x.toModel.unpack = .infinity .positive) := by
  obtain hzero | hpos := (bits x).eq_zero_or_pos
  · exact .inl ⟨hzero, unpack_of_bits_eq_zero hzero⟩
  · obtain hlt | heq := h.lt_or_eq
    · exact .inr (.inl ⟨hlt, unpack_of_bits_lt hpos hlt⟩)
    · exact .inr (.inr ⟨heq, unpack_of_bits_eq_infinityBits heq⟩)

end Unpacked

/-! ## Sums -/

theorem roundedBits_infinity_add {v : ℚ} (hv : 0 ≤ v) :
    roundedBits (magnitude infinityBits + v) = infinityBits := by
  refine le_antisymm (roundedBits_le _) ?_
  calc infinityBits = roundedBits (magnitude infinityBits) := (roundedBits_magnitude le_rfl).symm
    _ ≤ roundedBits (magnitude infinityBits + v) :=
      roundedBits_mono (magnitude_nonneg _) (le_add_of_nonneg_right hv)

section Sum

variable {x y x' y' : Float}

/-- The sum of two positive finite numbers is the exact sum, rounded. -/
theorem toNat_pack_add {m m' : ℕ} {e e' : ℤ} (hm : 0 < m) (hm' : 0 < m') :
    (UnpackedFloat.pack .binary64 (UnpackedFloat.add .binary64 (.finite .positive m e hm)
      (.finite .positive m' e' hm'))).toNat = roundedBits (m * 2 ^ e + m' * 2 ^ e') := by
  have hleft : min e e' ≤ e := min_le_left _ _
  have hright : min e e' ≤ e' := min_le_right _ _
  unfold UnpackedFloat.add
  dsimp only
  rw [decreaseExponent_of_le hleft, decreaseExponent_of_le hright]
  dsimp only [Sign.apply]
  rw [← Int.natCast_add, normalize_natCast (by positivity), toNat_pack_round (by positivity),
    Nat.cast_add, add_mul, mul_two_pow_mul_zpow hleft, mul_two_pow_mul_zpow hright]

/-- A sum is the exact sum, rounded. -/
theorem bits_add (hx : Unsigned x) (hy : Unsigned y) :
    bits (x + y) = roundedBits (magnitude (bits x) + magnitude (bits y)) := by
  change (UnpackedFloat.pack .binary64
    (UnpackedFloat.add .binary64 x.toModel.unpack y.toModel.unpack)).toNat = _
  obtain ⟨hbits, hunpack⟩ | ⟨hlt, hdigits, hunpack⟩ | ⟨hbits, hunpack⟩ := hx.cases
  · have hadd : UnpackedFloat.add .binary64 x.toModel.unpack y.toModel.unpack =
        y.toModel.unpack := by
      obtain ⟨-, hunpack'⟩ | ⟨-, hdigits', hunpack'⟩ | ⟨-, hunpack'⟩ := hy.cases <;>
        rw [hunpack, hunpack'] <;> rfl
    rw [hadd, hy.toNat_pack_unpack, hbits, magnitude_zero, zero_add, roundedBits_magnitude hy]
  · obtain ⟨hbits', hunpack'⟩ | ⟨hlt', hdigits', hunpack'⟩ | ⟨hbits', hunpack'⟩ := hy.cases
    · have hadd : UnpackedFloat.add .binary64 x.toModel.unpack y.toModel.unpack =
          x.toModel.unpack := by
        rw [hunpack, hunpack']
        rfl
      rw [hadd, hx.toNat_pack_unpack, hbits', magnitude_zero, add_zero, roundedBits_magnitude hx]
    · rw [hunpack, hunpack', toNat_pack_add hdigits hdigits', magnitude, magnitude]
    · have hadd : UnpackedFloat.add .binary64 x.toModel.unpack y.toModel.unpack =
          y.toModel.unpack := by
        rw [hunpack, hunpack']
        rfl
      rw [hadd, hy.toNat_pack_unpack, hbits', add_comm,
        roundedBits_infinity_add (magnitude_nonneg _)]
  · have hadd : UnpackedFloat.add .binary64 x.toModel.unpack y.toModel.unpack =
        x.toModel.unpack := by
      obtain ⟨-, hunpack'⟩ | ⟨-, hdigits', hunpack'⟩ | ⟨-, hunpack'⟩ := hy.cases <;>
        rw [hunpack, hunpack'] <;> rfl
    rw [hadd, hx.toNat_pack_unpack, hbits, roundedBits_infinity_add (magnitude_nonneg _)]

theorem unsigned_add (hx : Unsigned x) (hy : Unsigned y) : Unsigned (x + y) := by
  rw [Unsigned, bits_add hx hy]
  exact roundedBits_le _

/-- A sum grows with its summands. -/
theorem bits_add_mono (hx' : Unsigned x') (hy' : Unsigned y') (hx : bits x ≤ bits x')
    (hy : bits y ≤ bits y') : bits (x + y) ≤ bits (x' + y') := by
  rw [bits_add (hx.trans hx') (hy.trans hy'), bits_add hx' hy']
  exact roundedBits_mono (add_nonneg (magnitude_nonneg _) (magnitude_nonneg _))
    (add_le_add (magnitude_mono hx hx') (magnitude_mono hy hy'))

/-- Adding a number does not decrease a sum. -/
theorem bits_le_add (hx : Unsigned x) (hy : Unsigned y) : bits x ≤ bits (x + y) := by
  rw [bits_add hx hy]
  calc bits x = roundedBits (magnitude (bits x)) := (roundedBits_magnitude hx).symm
    _ ≤ roundedBits (magnitude (bits x) + magnitude (bits y)) :=
      roundedBits_mono (magnitude_nonneg _) (le_add_of_nonneg_right (magnitude_nonneg _))

theorem bits_le_add_left (hx : Unsigned x) (hy : Unsigned y) : bits y ≤ bits (x + y) := by
  have hcomm : bits (x + y) = bits (y + x) := by rw [bits_add hx hy, bits_add hy hx, add_comm]
  rw [hcomm]
  exact bits_le_add hy hx

end Sum

/-! ## Quotients -/

section Quotient

variable {w d d' : Float}

/-- The quotient of two positive finite numbers is the exact quotient, rounded. -/
theorem toNat_pack_div {m m' : ℕ} {e e' : ℤ} (hm : 0 < m) (hm' : 0 < m') :
    (UnpackedFloat.pack .binary64 (UnpackedFloat.div .binary64 (.finite .positive m e hm)
      (.finite .positive m' e' hm'))).toNat = roundedBits (m * 2 ^ e / (m' * 2 ^ e')) := by
  unfold UnpackedFloat.div divCore
  dsimp only
  rw [targetExponent_binary64, totalExponent, totalExponent, Nat.shiftLeft_eq]
  set target := min (e - e') (max ((m.log2 : ℤ) + 1 + e - (m'.log2 + 1 + e') - 53) (-1074))
    with htarget
  have hsign : Sign.positive / Sign.positive = Sign.positive := rfl
  rw [hsign]
  refine toNat_pack_roundWithAccuracy (by positivity) ?_ ?_
  · have hquotient : (m : ℚ) * 2 ^ e / (m' * 2 ^ e') / 2 ^ target =
        ((m * 2 ^ (e - e' - target).toNat : ℕ) : ℚ) / m' := by
      push_cast
      rw [← zpow_natCast, Int.toNat_of_nonneg (by omega), zpow_sub₀ (by norm_num),
        zpow_sub₀ (by norm_num)]
      field_simp
    rw [hquotient]
    exact .div _ hm'
  · have hpos : (0 : ℚ) < m * 2 ^ e / (m' * 2 ^ e') := by positivity
    have hlog := le_log_div hm hm' e e'
    rw [spacing, if_neg hpos.ne']
    omega

/-- A quotient by a finite number is the exact quotient, rounded. -/
theorem bits_div (hw : bits w < infinityBits) (hpos : 0 < bits d) (hd : bits d < infinityBits) :
    bits (w / d) = roundedBits (magnitude (bits w) / magnitude (bits d)) := by
  change (UnpackedFloat.pack .binary64
    (UnpackedFloat.div .binary64 w.toModel.unpack d.toModel.unpack)).toNat = _
  obtain ⟨hdigits, hunpack⟩ := unpack_of_bits_lt hpos hd
  obtain hzero | hwpos := (bits w).eq_zero_or_pos
  · rw [unpack_of_bits_eq_zero hzero, hunpack, hzero, magnitude_zero, zero_div, roundedBits_zero]
    exact toNat_pack_zero
  · obtain ⟨hdigits', hunpack'⟩ := unpack_of_bits_lt hwpos hw
    rw [hunpack, hunpack', toNat_pack_div hdigits' hdigits, magnitude, magnitude]

theorem bits_div_infinity (hw : bits w < infinityBits) (hd : bits d = infinityBits) :
    bits (w / d) = 0 := by
  change (UnpackedFloat.pack .binary64
    (UnpackedFloat.div .binary64 w.toModel.unpack d.toModel.unpack)).toNat = _
  rw [unpack_of_bits_eq_infinityBits hd]
  obtain hzero | hwpos := (bits w).eq_zero_or_pos
  · rw [unpack_of_bits_eq_zero hzero]
    exact toNat_pack_zero
  · obtain ⟨hdigits, hunpack⟩ := unpack_of_bits_lt hwpos hw
    rw [hunpack]
    exact toNat_pack_zero

theorem unsigned_div (hw : bits w < infinityBits) (hpos : 0 < bits d) (hd : Unsigned d) :
    Unsigned (w / d) := by
  unfold Unsigned
  obtain hlt | heq := hd.lt_or_eq
  · rw [bits_div hw hpos hlt]
    exact roundedBits_le _
  · rw [bits_div_infinity hw heq]
    exact Nat.zero_le _

/-- A quotient shrinks as the divisor grows. -/
theorem bits_div_anti (hw : bits w < infinityBits) (hpos : 0 < bits d) (hd' : Unsigned d')
    (h : bits d ≤ bits d') : bits (w / d') ≤ bits (w / d) := by
  obtain hlt | heq := hd'.lt_or_eq
  · rw [bits_div hw (hpos.trans_le h) hlt, bits_div hw hpos (h.trans_lt hlt)]
    have hdpos := magnitude_pos hpos
    have hle := magnitude_mono h hd'
    have hnonneg := magnitude_nonneg (bits w)
    exact roundedBits_mono (div_nonneg hnonneg (hdpos.le.trans hle)) (by gcongr)
  · rw [bits_div_infinity hw heq]
    exact Nat.zero_le _

end Quotient

/-! ## Natural numbers -/

section Natural

variable {n : ℕ}

/-- The product of two positive finite numbers is the exact product, rounded. -/
theorem toNat_pack_mul {m m' : ℕ} {e e' : ℤ} (hm : 0 < m) (hm' : 0 < m')
    (h : e + e' ≤ spacing (m * 2 ^ e * (m' * 2 ^ e'))) :
    (UnpackedFloat.pack .binary64 (UnpackedFloat.mul .binary64 (.finite .positive m e hm)
      (.finite .positive m' e' hm'))).toNat = roundedBits (m * 2 ^ e * (m' * 2 ^ e')) := by
  have hproduct : (m : ℚ) * 2 ^ e * (m' * 2 ^ e') / 2 ^ (e + e') = (m * m' : ℕ) := by
    rw [zpow_add₀ (by norm_num)]
    push_cast
    field_simp
  refine toNat_pack_roundWithAccuracy (by positivity) ?_ h
  rw [hproduct]
  exact .natCast _

/-- The bits of one. -/
def oneBits : ℕ := 1023 * 2 ^ 52

theorem magnitude_oneBits : magnitude oneBits = 1 := by
  norm_num [magnitude, digits, doublings, oneBits]

theorem oneBits_lt : oneBits < infinityBits := by
  norm_num [oneBits, infinityBits]

theorem bits_mul_one {x one : Float} (hx : bits x < infinityBits) (hone : bits one = oneBits) :
    bits (x * one) = bits x := by
  change (UnpackedFloat.pack .binary64
    (UnpackedFloat.mul .binary64 x.toModel.unpack one.toModel.unpack)).toNat = _
  obtain ⟨hdigits, hunpack⟩ := unpack_of_bits_lt (hone ▸ by norm_num [oneBits])
    (hone ▸ oneBits_lt)
  obtain hzero | hpos := (bits x).eq_zero_or_pos
  · rw [unpack_of_bits_eq_zero hzero, hunpack, hzero]
    exact toNat_pack_zero
  · obtain ⟨hdigits', hunpack'⟩ := unpack_of_bits_lt hpos hx
    have hvalue : (digits (bits one) : ℚ) * 2 ^ ((doublings (bits one) : ℤ) - 1074) = 1 := by
      rw [hone]
      exact magnitude_oneBits
    have hexponent : (doublings (bits one) : ℤ) - 1074 ≤ 0 := by
      rw [hone]
      decide
    rw [hunpack, hunpack', toNat_pack_mul hdigits' hdigits, hvalue, mul_one]
    · exact roundedBits_magnitude hx.le
    · rw [hvalue, mul_one, spacing_eq (digits_lt _) (by omega) fun hlt => le_digits (by omega)]
      omega

/-- A machine word is rounded. -/
theorem bits_toFloat (n : UInt64) : bits n.toFloat = roundedBits n.toNat := by
  change (UnpackedFloat.pack .binary64
    (normalize .binary64 (n.toNat : ℤ) 0 .positive)).toNat = _
  obtain hzero | hpos := n.toNat.eq_zero_or_pos
  · have hcast : (n.toNat : ℚ) = 0 := by exact_mod_cast hzero
    rw [hcast, roundedBits_zero, hzero]
    exact toNat_pack_zero
  · rw [normalize_natCast hpos, toNat_pack_round hpos, zpow_zero, mul_one]

theorem neg_le_spacing_natCast (hpos : 0 < n) : -52 ≤ spacing n := by
  have hlog : 0 ≤ Int.log 2 (n : ℚ) := by
    rw [← Int.zpow_le_iff_le_log (by norm_num) (by exact_mod_cast hpos), zpow_zero]
    exact_mod_cast hpos
  rw [spacing, if_neg (by exact_mod_cast hpos.ne')]
  omega

theorem roundedBits_lt (h : n < 2 ^ 53) : roundedBits n < infinityBits := by
  have hvalue : ((2 ^ 52 : ℕ) : ℚ) * 2 ^ (1 : ℤ) = 2 ^ 53 := by norm_num
  calc roundedBits n ≤ roundedBits (2 ^ 53) :=
        roundedBits_mono (Nat.cast_nonneg n) (by exact_mod_cast h.le)
    _ = min infinityBits ((1 + 1074 : ℤ).toNat * 2 ^ 52 + 2 ^ 52) := by
      rw [← hvalue, roundedBits_eq (by norm_num) (by norm_num) fun _ => le_rfl]
    _ < infinityBits := by decide

/-- A natural number is rounded. -/
theorem bits_ofNat (n : ℕ) : bits (Float.ofNat n) = roundedBits n := by
  change bits (Float.ofScientific n false 0) = _
  unfold Float.ofScientific
  simp only [Bool.false_eq_true, if_false]
  split_ifs with hsmall
  · have hone : bits Float.exactlyRepresentablePowersOfTen[0] = oneBits := by
      decide +kernel
    have hword : n.toUInt64.toNat = n := by
      simp
      omega
    have hfloat : bits n.toUInt64.toFloat = roundedBits n := by
      rw [bits_toFloat, hword]
    rw [bits_mul_one (hfloat ▸ roundedBits_lt hsmall.1) hone, hfloat]
  · have hlarge : 2 ^ 53 ≤ n := by omega
    have hpos : 0 < n := by omega
    change (UnpackedFloat.pack .binary64
      (UnpackedFloat.ofScientific .binary64 n 0)).toNat = _
    have hrange : ¬ (0 : ℤ) < -((2 ^ 11 : ℤ) + n.log2) := by omega
    unfold UnpackedFloat.ofScientific
    rw [dif_neg hpos.ne', if_neg (by decide), if_neg hrange, if_pos le_rfl]
    have hvalue : ((n <<< 53 : ℕ) : ℚ) * 2 ^ (-53 : ℤ) * (((1 : ℕ) : ℚ) * 2 ^ (0 : ℤ)) = n := by
      rw [Nat.shiftLeft_eq]
      push_cast
      field_simp
      norm_num
    have hspacing : (-53 : ℤ) + (0 : ℤ) ≤
        spacing (((n <<< 53 : ℕ) : ℚ) * 2 ^ (-53 : ℤ) * (((1 : ℕ) : ℚ) * 2 ^ (0 : ℤ))) := by
      have hbelow := neg_le_spacing_natCast hpos
      rw [hvalue]
      omega
    have hshift : 0 < n <<< 53 := by
      rw [Nat.shiftLeft_eq]
      positivity
    have hmul := toNat_pack_mul hshift one_pos hspacing
    rwa [hvalue] at hmul

theorem bits_ofNat_mono {n n' : ℕ} (h : n ≤ n') :
    bits (Float.ofNat n) ≤ bits (Float.ofNat n') := by
  rw [bits_ofNat, bits_ofNat]
  exact roundedBits_mono (Nat.cast_nonneg n) (by exact_mod_cast h)

theorem unsigned_ofNat (n : ℕ) : Unsigned (Float.ofNat n) := by
  rw [Unsigned, bits_ofNat]
  exact roundedBits_le _

theorem bits_ofNat_one : bits (Float.ofNat 1) = oneBits := by
  rw [bits_ofNat, Nat.cast_one, ← magnitude_oneBits, roundedBits_magnitude oneBits_lt.le]

theorem bits_ofNat_pos (h : 0 < n) : 0 < bits (Float.ofNat n) :=
  calc 0 < oneBits := by norm_num [oneBits]
    _ = bits (Float.ofNat 1) := bits_ofNat_one.symm
    _ ≤ bits (Float.ofNat n) := bits_ofNat_mono h

/-- An equal share is a finite number. -/
theorem bits_share_lt (h : 0 < n) : bits (Float.ofNat 1 / Float.ofNat n) < infinityBits := by
  have hone : bits (Float.ofNat 1) < infinityBits := bits_ofNat_one ▸ oneBits_lt
  have hpos : 0 < bits (Float.ofNat 1) := bits_ofNat_pos one_pos
  calc bits (Float.ofNat 1 / Float.ofNat n) ≤ bits (Float.ofNat 1 / Float.ofNat 1) :=
        bits_div_anti hone hpos (unsigned_ofNat n) (bits_ofNat_mono h)
    _ = roundedBits (magnitude oneBits) := by
      rw [bits_div hone hpos hone, bits_ofNat_one, magnitude_oneBits, div_one]
    _ = oneBits := roundedBits_magnitude oneBits_lt.le
    _ < infinityBits := oneBits_lt

end Natural

/-! ## Comparison -/

section Comparison

variable {x y w d : Float}

theorem le_iff_unpack_le : x ≤ y ↔ UnpackedFloat.le x.toModel.unpack y.toModel.unpack = true := by
  change decide (x.toModel ≤ y.toModel) = true ↔ _
  rw [decide_eq_true_iff]
  rfl

/-- Positive numbers are compared by the exponents first, which is how their bits are compared. -/
theorem le_finite {n n' : ℕ} (h : n ≤ n') (hn : 0 < digits n) (hn' : 0 < digits n') :
    UnpackedFloat.le (.finite .positive (digits n) ((doublings n : ℤ) - 1074) hn)
      (.finite .positive (digits n') ((doublings n' : ℤ) - 1074) hn') = true := by
  have hbits := doublings_add_digits n
  have hbits' := doublings_add_digits n'
  have hmono : doublings n ≤ doublings n' := by
    unfold doublings
    omega
  change ((compare ((doublings n : ℤ) - 1074) ((doublings n' : ℤ) - 1074)).then
    (compare (digits n) (digits n'))).isLE = true
  obtain hlt | heq := hmono.lt_or_eq
  · have hcompare : compare ((doublings n : ℤ) - 1074) ((doublings n' : ℤ) - 1074) = .lt :=
      compare_lt_iff_lt.2 (by omega)
    rw [hcompare]
    rfl
  · have hcompare : compare ((doublings n : ℤ) - 1074) ((doublings n' : ℤ) - 1074) = .eq :=
      compare_eq_iff_eq.2 (by omega)
    rw [hcompare, Ordering.then, Nat.isLE_compare]
    omega

/-- The order of the bits is the order of the numbers. -/
theorem le_of_bits_le (hy : Unsigned y) (h : bits x ≤ bits y) : x ≤ y := by
  rw [le_iff_unpack_le]
  obtain ⟨hbits, hunpack⟩ | ⟨hlt, hdigits, hunpack⟩ | ⟨hbits, hunpack⟩ :=
      Unsigned.cases (h.trans hy) <;>
    obtain ⟨hbits', hunpack'⟩ | ⟨hlt', hdigits', hunpack'⟩ | ⟨hbits', hunpack'⟩ := hy.cases <;>
    rw [hunpack, hunpack']
  · rfl
  · rfl
  · rfl
  · have hpos : 0 < bits x := Nat.pos_of_ne_zero fun hzero => by simp [hzero, digits] at hdigits
    omega
  · exact le_finite h hdigits hdigits'
  · rfl
  · exact absurd (hbits ▸ h) (by rw [hbits']; decide)
  · exact absurd hlt' (by omega)
  · rfl

theorem isFinite_of_bits_lt (h : bits x < infinityBits) : x.isFinite = true := by
  change x.toModel.unpack.isFinite = true
  obtain ⟨-, hunpack⟩ | ⟨-, _, hunpack⟩ | ⟨hbits, -⟩ := Unsigned.cases h.le
  · rw [hunpack]
    rfl
  · rw [hunpack]
    rfl
  · exact absurd hbits h.ne

/-- A finite number that is not below zero is unsigned, or it is the negative zero. -/
theorem bits_lt_or_unpack_eq (hfinite : w.isFinite = true) (hle : 0.0 ≤ w) :
    bits w < infinityBits ∨ w.toModel.unpack = .zero .negative := by
  have hexponent := exponent_ne_of_isFinite hfinite
  obtain hlt | hsign := lt_or_ge (bits w) (2 ^ 63)
  · left
    unfold infinityBits
    change bits w / 2 ^ 52 % 2 ^ 11 ≠ 2047 at hexponent
    omega
  · right
    obtain hzero | ⟨m, e, hm, hnegative⟩ : w.toModel.unpack = .zero .negative ∨
        ∃ m e hm, w.toModel.unpack = .finite .negative m e hm := unpack_negative hsign hfinite
    · exact hzero
    · have hzero : (0.0 : Float).toModel.unpack = .zero .positive :=
        unpack_of_bits_eq_zero (by decide +kernel)
      rw [le_iff_unpack_le, hzero, hnegative] at hle
      exact absurd hle Bool.false_ne_true

/-- A quotient of the negative zero adds nothing. -/
theorem add_div_eq_self (hx : Unsigned x) (hw : w.toModel.unpack = .zero .negative)
    (hpos : 0 < bits d) (hd : Unsigned d) : x + w / d = x := by
  have hquotient : (w / d).toModel.unpack = .zero .negative := by
    change (Float.Model.pack
      (UnpackedFloat.div .binary64 w.toModel.unpack d.toModel.unpack)).unpack = _
    rw [hw]
    have hdiv : UnpackedFloat.div .binary64 (.zero .negative) d.toModel.unpack =
        .zero .negative := by
      obtain ⟨hzero, -⟩ | ⟨-, hdigits, hunpack⟩ | ⟨-, hunpack⟩ := hd.cases
      · omega
      · rw [hunpack]
        rfl
      · rw [hunpack]
        rfl
    rw [hdiv]
    rfl
  apply bits_injective
  change (UnpackedFloat.pack .binary64
    (UnpackedFloat.add .binary64 x.toModel.unpack (w / d).toModel.unpack)).toNat = _
  rw [hquotient, ← hx.toNat_pack_unpack]
  obtain ⟨-, hunpack⟩ | ⟨-, hdigits, hunpack⟩ | ⟨-, hunpack⟩ := hx.cases <;> rw [hunpack] <;> rfl

end Comparison

end CodeIndex.Binary64
