import CodeIndex.Proofs.Number.Normal

/-!
# Counting in single precision

A 32-bit floating point number counts up and down by one exactly as long as it stays within the
integers of 24 binary digits; at `2 ^ 24` the next integer is a tie between two numbers, and the
even one of them is `2 ^ 24` again, so the count stays where it is.  Sums of squares of such counts stop
growing in the same way long before they overflow.

## Main definitions

* `Denotes` relates a number in single precision, zero or a normal one, to what it stands for.
* `saturate` keeps an integer within the range of counting.

## Main results

* `Denotes.count`: a step of counting.
* `Denotes.square` and `Denotes.add_square`: sums of squares of counts do not overflow.
* `Denotes.sqrt` and `Denotes.div_length`: the length of a vector of counts and the vector scaled by
  it neither vanish nor overflow.
-/

namespace CodeIndex.Binary32

open Float.Model Float.Model.UnpackedFloat
open FloatFormat (rounded rounded_mono rounded_of_pos rounded_neg rounded_eq lastExponent InRange)

variable {x y : Float32} {v w : ℚ}

/-- A number in single precision is zero or a normal number, and stands for a rational number. -/
def Denotes (x : Float32) (v : ℚ) : Prop := FloatFormat.Denotes .binary32 x.toModel.unpack v

/-- The numbers whose digits, rounded, have an exponent that can be packed, and more than are needed
here. -/
theorem inRange (hlow : 2 ^ (-100 : ℤ) ≤ |v|) (hhigh : |v| ≤ 2 ^ (100 : ℤ)) :
    InRange .binary32 v := by
  have hpos : 0 < |v| := lt_of_lt_of_le (by positivity) hlow
  have hleast := (FloatFormat.zpow_le_iff_le_log hpos).1 hlow
  have hgreatest : Int.log 2 |v| < 101 :=
    (FloatFormat.lt_zpow_iff_log_lt hpos).1 (hhigh.trans_lt (by norm_num))
  have hmin : Format.binary32.minExponent = -149 := rfl
  have hbits : Format.binary32.mantissaBits = 24 := rfl
  have hbias : Format.binary32.exponentBias = 127 := rfl
  refine ⟨?_, ?_⟩
  · rw [lastExponent, hmin, hbits]
    omega
  · rw [hbias]
    omega

/-- What is packed is unpacked again. -/
theorem denotes_pack {u : UnpackedFloat} (h : FloatFormat.Denotes .binary32 u v) :
    Denotes (.ofModel (.pack u)) v := by
  have hunpack : (Float32.Model.pack u).unpack = u := h.unpack_pack
  rwa [Denotes, hunpack]

theorem Denotes.add (hx : Denotes x v) (hy : Denotes y w)
    (hrange : v + w ≠ 0 → 2 ^ (-100 : ℤ) ≤ |v + w| ∧ |v + w| ≤ 2 ^ (100 : ℤ)) :
    Denotes (x + y) (rounded 24 (v + w)) :=
  denotes_pack (FloatFormat.Denotes.add hx hy fun h => inRange (hrange h).1 (hrange h).2)

/-! ## Constants -/

theorem denotes_zero : Denotes 0 0 := by
  have hbits : (0 : Float32).toModel.toBits = 0 := by decide +kernel
  rw [Denotes, Float32.Model.unpack, hbits]
  exact .zero

/-- The numbers one and minus one. -/
theorem denotes_unit {sign : Sign} {b : UInt32} (hbits : x.toModel.toBits = b)
    (hunpack : UnpackedFloat.unpack .binary32 b.toBitVec =
      .finite sign (2 ^ 23) (-23) (Nat.two_pow_pos 23)) :
    Denotes x (FloatFormat.signed sign 1) := by
  have hvalue : (1 : ℚ) = (2 ^ 23 : ℕ) * 2 ^ (-23 : ℤ) := by norm_num
  rw [Denotes, Float32.Model.unpack, hbits, hunpack, hvalue]
  exact .finite _ (by decide) (by decide) (by decide)

theorem denotes_one : Denotes 1 1 :=
  denotes_unit (by decide +kernel : (1 : Float32).toModel.toBits = 0x3F800000) rfl

theorem denotes_neg_one : Denotes (-1) (-1) :=
  denotes_unit (by decide +kernel : (-1 : Float32).toModel.toBits = 0xBF800000) rfl

/-! ## Counting -/

/-- An integer kept within the range of counting. -/
def saturate (n : ℤ) : ℤ := max (-2 ^ 24) (min (2 ^ 24) n)

theorem abs_saturate_le (n : ℤ) : |saturate n| ≤ 2 ^ 24 := by
  unfold saturate
  rw [abs_le]
  omega

theorem saturate_of_abs_le {n : ℤ} (h : |n| ≤ 2 ^ 24) : saturate n = n := by
  rw [abs_le] at h
  unfold saturate
  omega

@[simp] theorem saturate_neg (n : ℤ) : saturate (-n) = -saturate n := by
  unfold saturate
  omega

/-- The first integer of 25 digits is a tie, and is rounded to the even digits below it. -/
theorem rounded_tie (e : ℤ) : rounded 24 ((2 ^ 24 + 1) * 2 ^ e) = 2 ^ 24 * 2 ^ e := by
  have hv : (0 : ℚ) < (2 ^ 24 + 1) * 2 ^ e := by positivity
  have hlog : Int.log 2 ((2 ^ 24 + 1 : ℚ) * 2 ^ e) = 24 + e := by
    have hdigits := @Binary64.log_eq ((2 ^ 24 + 1 : ℚ) * 2 ^ e) (2 ^ 24 + 1) e (by norm_num)
      (by norm_num) (by push_cast; gcongr; norm_num)
    rw [hdigits]
    rfl
  have hlast : lastExponent 24 ((2 ^ 24 + 1 : ℚ) * 2 ^ e) = e + 1 := by
    rw [lastExponent, abs_of_pos hv, hlog]
    push_cast
    ring
  have hhalf : (2 ^ 24 + 1 : ℚ) * 2 ^ e / 2 ^ (e + 1) = (2 ^ 24 + 1) / 2 := by
    rw [zpow_add₀ (by norm_num)]
    field_simp
  have hnearest : Binary64.nearest ((2 ^ 24 + 1) / 2) = 2 ^ 23 := by
    have hfloor : ⌊2 * ((2 ^ 24 + 1) / 2 : ℚ)⌋₊ = 2 ^ 24 + 1 := by
      rw [mul_div_cancel₀ _ (by norm_num)]
      exact_mod_cast Nat.floor_natCast (2 ^ 24 + 1)
    unfold Binary64.nearest
    rw [hfloor]
    norm_num
  rw [rounded_of_pos hv, hlast, hhalf, hnearest, zpow_add₀ (by norm_num)]
  push_cast
  ring

/-- An integer next to the range of counting is rounded into it. -/
theorem rounded_intCast {n : ℤ} (h : |n| ≤ 2 ^ 24 + 1) : rounded 24 n = saturate n := by
  have hnat : ∀ m : ℕ, m ≤ 2 ^ 24 + 1 → rounded 24 (m : ℤ) = saturate m := by
    intro m hm
    obtain hlt | heq | heq : m < 2 ^ 24 ∨ m = 2 ^ 24 ∨ m = 2 ^ 24 + 1 := by omega
    · have hsame : saturate m = m := saturate_of_abs_le (by rw [abs_of_nonneg] <;> omega)
      simpa [hsame] using rounded_eq hlt 0
    · have hsame : saturate m = m := saturate_of_abs_le (by rw [abs_of_nonneg] <;> omega)
      have hpower := @rounded_eq 24 1 (by norm_num) 24
      norm_num at hpower
      rw [hsame, heq]
      norm_num [hpower]
    · have hlast : saturate m = 2 ^ 24 := by
        unfold saturate
        omega
      have htie := rounded_tie 0
      norm_num at htie
      rw [hlast, heq]
      norm_num [htie]
  obtain ⟨m, rfl | rfl⟩ := n.eq_nat_or_neg
  · exact_mod_cast hnat m (by simpa [abs_of_nonneg] using h)
  · have hm := hnat m (by simpa using h)
    push_cast at hm ⊢
    simp [hm]

/-- A step of counting. -/
theorem Denotes.count {n s : ℤ} (hx : Denotes x n) (hn : |n| ≤ 2 ^ 24) (hy : Denotes y s)
    (hs : |s| = 1) : Denotes (x + y) (saturate (n + s) : ℤ) := by
  have hsum : |n + s| ≤ 2 ^ 24 + 1 := (abs_add_le n s).trans (by omega)
  rw [← rounded_intCast hsum]
  push_cast
  refine hx.add hy fun hne => ?_
  have hone : 1 ≤ |n + s| := Int.one_le_abs (by exact_mod_cast hne)
  constructor
  · calc (2 : ℚ) ^ (-100 : ℤ) ≤ 1 := by norm_num
      _ ≤ |(n : ℚ) + s| := by exact_mod_cast hone
  · calc |(n : ℚ) + s| ≤ 2 ^ 24 + 1 := by exact_mod_cast hsum
      _ ≤ 2 ^ (100 : ℤ) := by norm_num

/-! ## Sums of squares -/

/-- A number that is zero, or at least one and at most a power of two. -/
def Moderate (e : ℤ) (v : ℚ) : Prop := v = 0 ∨ 1 ≤ v ∧ v ≤ 2 ^ e

theorem one_le_rounded (h : 1 ≤ v) : 1 ≤ rounded 24 v := by
  simpa using @FloatFormat.le_rounded 24 v (by norm_num) 0 (by simpa using h)

theorem inRange_of_one_le (hone : 1 ≤ v) (h : v ≤ 2 ^ (100 : ℤ)) : InRange .binary32 v := by
  refine inRange ?_ ?_ <;> rw [abs_of_nonneg (by linarith)]
  · exact le_trans (by norm_num) hone
  · exact h

/-- The square of a count. -/
theorem Denotes.square {n : ℤ} (hx : Denotes x n) (hn : |n| ≤ 2 ^ 24) :
    ∃ q, Denotes (x * x) q ∧ Moderate 48 q ∧ (q = 0 ↔ n = 0) := by
  have hbounds : n ≠ 0 → 1 ≤ (n : ℚ) * n ∧ (n : ℚ) * n ≤ 2 ^ (48 : ℤ) := by
    intro hne
    have hone : 1 ≤ |n| := Int.one_le_abs hne
    have hlow : 1 * 1 ≤ |n| * |n| := mul_le_mul hone hone (by norm_num) (by omega)
    have hhigh : |n| * |n| ≤ 2 ^ 24 * 2 ^ 24 := mul_le_mul hn hn (by omega) (by norm_num)
    rw [abs_mul_abs_self] at hlow hhigh
    exact ⟨by exact_mod_cast hlow, by norm_num; exact_mod_cast hhigh⟩
  have hsquare : Denotes (x * x) (rounded 24 (n * n)) := by
    refine denotes_pack (FloatFormat.Denotes.mul_self hx fun hne => ?_)
    obtain ⟨hlow, hhigh⟩ := hbounds (by exact_mod_cast hne)
    exact inRange_of_one_le hlow (hhigh.trans (by norm_num))
  refine ⟨_, hsquare, ?_, ?_⟩
  · obtain rfl | hne := eq_or_ne n 0
    · exact .inl (by simp)
    · obtain ⟨hlow, hhigh⟩ := hbounds hne
      exact .inr ⟨one_le_rounded hlow, FloatFormat.rounded_le (by norm_num) (by linarith) hhigh⟩
  · simp [FloatFormat.rounded_eq_zero]

/-- Adding a square to a sum of squares.  The sum does not pass `2 ^ 72`, since the greatest square
is half of the distance to the next number there, and ties go back. -/
theorem Denotes.add_square (hx : Denotes x v) (hv : Moderate 72 v) (hy : Denotes y w)
    (hw : Moderate 48 w) :
    ∃ u, Denotes (x + y) u ∧ Moderate 72 u ∧ (u = 0 ↔ v = 0 ∧ w = 0) := by
  have hbounds : v + w = 0 ∧ v = 0 ∧ w = 0 ∨
      ¬ (v = 0 ∧ w = 0) ∧ 1 ≤ v + w ∧ v + w ≤ (2 ^ 24 + 1) * 2 ^ (48 : ℤ) := by
    have hsplit : ((2 : ℚ) ^ 24 + 1) * 2 ^ (48 : ℤ) = 2 ^ (72 : ℤ) + 2 ^ (48 : ℤ) := by norm_num
    rw [hsplit]
    obtain rfl | ⟨hv, hv'⟩ := hv <;> obtain rfl | ⟨hw, hw'⟩ := hw
    · simp
    · exact .inr ⟨by rintro ⟨-, rfl⟩; linarith, by linarith, by linarith⟩
    · exact .inr ⟨by rintro ⟨rfl, -⟩; linarith, by linarith, by linarith⟩
    · exact .inr ⟨by rintro ⟨rfl, -⟩; linarith, by linarith, by linarith⟩
  have hsum : Denotes (x + y) (rounded 24 (v + w)) := by
    refine denotes_pack (FloatFormat.Denotes.add hx hy fun hne => ?_)
    obtain ⟨hzero, -⟩ | ⟨-, hlow, hhigh⟩ := hbounds
    · exact absurd hzero hne
    · exact inRange_of_one_le hlow (hhigh.trans (by norm_num))
  refine ⟨_, hsum, ?_, ?_⟩
  · obtain ⟨hzero, -⟩ | ⟨-, hlow, hhigh⟩ := hbounds
    · exact .inl (by simp [hzero])
    · refine .inr ⟨one_le_rounded hlow, ?_⟩
      calc rounded 24 (v + w) ≤ rounded 24 ((2 ^ 24 + 1) * 2 ^ (48 : ℤ)) :=
            rounded_mono (by norm_num) (by linarith) hhigh
        _ = 2 ^ (72 : ℤ) := by rw [rounded_tie]; norm_num
  · rw [FloatFormat.rounded_eq_zero (by norm_num)]
    obtain ⟨hzero, hboth⟩ | ⟨hnot, hlow, -⟩ := hbounds
    · exact iff_of_true hzero hboth
    · exact iff_of_false (by linarith) hnot

/-! ## Lengths -/

theorem Denotes.sqrt_zero (hx : Denotes x 0) : Denotes x.sqrt 0 := by
  refine denotes_pack ?_
  rw [FloatFormat.Denotes.eq_zero hx rfl]
  exact .zero

/-- The length of a vector of counts that is not zero. -/
theorem Denotes.sqrt (hx : Denotes x v) (hone : 1 ≤ v) (hv : v ≤ 2 ^ (72 : ℤ)) :
    ∃ w, Denotes x.sqrt w ∧ 1 ≤ w ∧ w ≤ 2 ^ (37 : ℤ) := by
  have hpos : 0 < v := by linarith
  have hleast : 0 ≤ Int.log 2 v := (FloatFormat.zpow_le_iff_le_log hpos).1 (by simpa using hone)
  have hgreatest : Int.log 2 v < 73 :=
    (FloatFormat.lt_zpow_iff_log_lt hpos).1 (hv.trans_lt (by norm_num))
  have hmin : Format.binary32.minExponent = -149 := rfl
  have hbits : Format.binary32.mantissaBits = 24 := rfl
  have hbias : Format.binary32.exponentBias = 127 := rfl
  obtain ⟨w, hw, hlow, hhigh⟩ := FloatFormat.Denotes.sqrt hx hpos (by omega) (by omega)
  refine ⟨w, denotes_pack hw, ?_, ?_⟩
  · calc (1 : ℚ) = 2 ^ (0 : ℤ) := by norm_num
      _ ≤ 2 ^ (Int.log 2 v / 2) := zpow_le_zpow_right₀ (by norm_num) (by omega)
      _ ≤ w := hlow
  · exact hhigh.trans (zpow_le_zpow_right₀ (by norm_num) (by omega))

/-- A count divided by a length. -/
theorem Denotes.div_length {n : ℤ} (hx : Denotes x n) (hn : |n| ≤ 2 ^ 24) (hy : Denotes y w)
    (hone : 1 ≤ w) (hw : w ≤ 2 ^ (37 : ℤ)) :
    ∃ z, Denotes (x / y) z ∧ (z = 0 ↔ n = 0) := by
  have hpos : 0 < w := by linarith
  refine ⟨rounded 24 (n / w), denotes_pack (FloatFormat.Denotes.div hx hy hpos fun hne => ?_), ?_⟩
  · have hlow : (1 : ℚ) ≤ |(n : ℚ)| := by exact_mod_cast Int.one_le_abs (by exact_mod_cast hne)
    have hhigh : |(n : ℚ)| ≤ 2 ^ 24 := by exact_mod_cast hn
    refine inRange ?_ ?_ <;> rw [abs_div, abs_of_pos hpos]
    · rw [le_div_iff₀ hpos]
      calc (2 : ℚ) ^ (-100 : ℤ) * w ≤ 2 ^ (-100 : ℤ) * 2 ^ (37 : ℤ) := by gcongr
        _ ≤ 1 := by norm_num
        _ ≤ |(n : ℚ)| := hlow
    · rw [div_le_iff₀ hpos]
      calc |(n : ℚ)| ≤ 2 ^ (100 : ℤ) * 1 := hhigh.trans (by norm_num)
        _ ≤ 2 ^ (100 : ℤ) * w := by gcongr
  · rw [FloatFormat.rounded_eq_zero (by norm_num), div_eq_zero_iff, or_iff_left hpos.ne']
    exact Int.cast_eq_zero

/-! ## Comparisons -/

theorem unpack_zero : (0 : Float32).toModel.unpack = .zero .positive :=
  FloatFormat.Denotes.eq_zero denotes_zero rfl

theorem Denotes.isFinite (hx : Denotes x v) : x.isFinite = true :=
  FloatFormat.Denotes.isFinite hx

theorem Denotes.beq_zero (hx : Denotes x v) : (x == 0) = true ↔ v = 0 := by
  change UnpackedFloat.beq x.toModel.unpack (0 : Float32).toModel.unpack = true ↔ _
  rw [unpack_zero]
  obtain rfl | hv := eq_or_ne v 0
  · rw [FloatFormat.Denotes.eq_zero hx rfl]
    exact iff_of_true rfl rfl
  · obtain ⟨sign, m, e, hm, hunpack, -⟩ := FloatFormat.Denotes.eq_finite hx hv
    rw [hunpack]
    refine iff_of_false ?_ hv
    cases sign <;> exact Bool.false_ne_true

theorem Denotes.zero_lt (hx : Denotes x v) (hv : 0 ≤ v) : 0 < x ↔ v ≠ 0 := by
  change decide ((0 : Float32).toModel < x.toModel) = true ↔ _
  rw [decide_eq_true_iff]
  change UnpackedFloat.lt (0 : Float32).toModel.unpack x.toModel.unpack = true ↔ _
  rw [unpack_zero]
  obtain rfl | hne := hv.eq_or_lt
  · rw [FloatFormat.Denotes.eq_zero hx rfl]
    exact iff_of_false Bool.false_ne_true (not_not.2 rfl)
  · obtain ⟨sign, m, e, hm, hunpack, rfl⟩ := FloatFormat.Denotes.eq_finite hx hne.ne'
    obtain rfl := FloatFormat.sign_eq_positive hne
    rw [hunpack]
    exact iff_of_true rfl hne.ne'

end CodeIndex.Binary32
