import CodeIndex.Json.Value
import Mathlib.Data.Nat.Digits.Defs
import Mathlib.Data.Nat.Digits.Lemmas

/-!
# Hexadecimal numerals

A numeral is a sequence of digits, each a place in `0123456789abcdef` up to the case of letters,
and its value is the number with these digits to base sixteen.  The digits are told by looking
them up in the alphabet, with no arithmetic on code points, so that what the readers of digits
compute can be compared with it.

## Main definitions

* `IsHexDigit`, `digitValue`: digits and their values.
* `IsNumeral`, `numeral`: numerals of a given length and their values.

## Main results

* `hexValue?_eq`: the reader of one digit knows exactly these digits.
* `numeral_inj`: numerals of one length with one value differ at most in the case of letters.
* `foldlM_hexValue?`: reading from the front computes the value.
-/

namespace CodeIndex

/-! ## Digits -/

/-- The digits, in the order of their values. -/
def hexAlphabet : List Char :=
  ['0', '1', '2', '3', '4', '5', '6', '7', '8', '9', 'a', 'b', 'c', 'd', 'e', 'f']

/-- The character is a digit, in either case. -/
def IsHexDigit (c : Char) : Prop := c.toLower ∈ hexAlphabet

instance (c : Char) : Decidable (IsHexDigit c) := inferInstanceAs (Decidable (_ ∈ _))

/-- The value of a digit: its place in the alphabet. -/
def digitValue (c : Char) : Nat := hexAlphabet.idxOf c.toLower

theorem digitValue_lt {c : Char} (h : IsHexDigit c) : digitValue c < 16 :=
  List.idxOf_lt_length_of_mem h

theorem digitValue_inj {c d : Char} (h : IsHexDigit c) :
    digitValue c = digitValue d ↔ c.toLower = d.toLower :=
  List.idxOf_inj h

/-- Digits are among the first 128 characters, as the alphabet is and every character that differs
from its lower case. -/
theorem IsHexDigit.toNat_lt {c : Char} (h : IsHexDigit c) : c.toNat < 128 := by
  have halphabet : hexAlphabet.all (·.toNat < 128) := by decide
  by_cases hupper : c.val ≥ 'A'.val ∧ c.val ≤ 'Z'.val
  · have hrange : c.toNat ≤ 90 := hupper.2
    omega
  · have hlower : c.toLower = c := dif_neg hupper
    rw [IsHexDigit, hlower] at h
    exact of_decide_eq_true (List.all_eq_true.1 halphabet c h)

theorem IsHexDigit.utf8Size {c : Char} (h : IsHexDigit c) : c.utf8Size = 1 := by
  have hsmall := h.toNat_lt
  rw [Char.utf8Size_eq_one_iff]
  show c.toNat ≤ 127
  omega

/-- The reader of one digit compares code points.  Below 128 the cases are checked one by one;
above, neither the reader nor the alphabet knows the character. -/
theorem hexValue?_eq (c : Char) :
    Json.hexValue? c = if IsHexDigit c then some (digitValue c) else none := by
  by_cases hsmall : c.toNat < 128
  · have hall : ∀ n < 128, Json.hexValue? (Char.ofNat n) =
        if IsHexDigit (Char.ofNat n) then some (digitValue (Char.ofNat n)) else none := by
      decide +kernel
    have hc := hall c.toNat hsmall
    rwa [Char.ofNat_toNat] at hc
  · have hdigit : ¬ IsHexDigit c := fun h => hsmall h.toNat_lt
    have hbound : ∀ d : Char, d.toNat < 128 → ¬ c ≤ d := by
      intro d hd hle
      have hnat : c.toNat ≤ d.toNat := hle
      omega
    have h9 : ¬ c ≤ '9' := hbound '9' (by decide)
    have hf : ¬ c ≤ 'f' := hbound 'f' (by decide)
    have hF : ¬ c ≤ 'F' := hbound 'F' (by decide)
    simp [Json.hexValue?, hdigit, h9, hf, hF]

/-! ## Numerals -/

/-- All characters are digits. -/
def AreHexDigits (text : List Char) : Prop := ∀ c ∈ text, IsHexDigit c

-- Decided along the text: there are finitely many characters, so going through all of them would
-- be an instance as well.
instance (text : List Char) : Decidable (AreHexDigits text) := List.decidableBAll IsHexDigit text

@[simp] theorem areHexDigits_nil : AreHexDigits [] := List.forall_mem_nil _

@[simp] theorem areHexDigits_cons {c : Char} {text : List Char} :
    AreHexDigits (c :: text) ↔ IsHexDigit c ∧ AreHexDigits text := List.forall_mem_cons

/-- A numeral of `count` digits. -/
def IsNumeral (count : Nat) (text : List Char) : Prop :=
  text.length = count ∧ AreHexDigits text

instance (count : Nat) (text : List Char) : Decidable (IsNumeral count text) :=
  inferInstanceAs (Decidable (_ ∧ _))

/-- The number with these digits, the last one counting ones. -/
def numeral (text : List Char) : Nat := Nat.ofDigits 16 (text.map digitValue).reverse

theorem numeral_cons (c : Char) (text : List Char) :
    numeral (c :: text) = digitValue c * 16 ^ text.length + numeral text := by
  rw [numeral, numeral, List.map_cons, Nat.ofDigits_reverse_cons, List.length_map]
  ring

/-- A leading zero does not count. -/
theorem numeral_zero_cons (text : List Char) : numeral ('0' :: text) = numeral text := by
  have hzero : digitValue '0' = 0 := by decide
  rw [numeral_cons, hzero]
  simp

theorem mem_digits_lt {text : List Char} (h : AreHexDigits text) :
    ∀ d ∈ (text.map digitValue).reverse, d < 16 := by
  intro d hd
  obtain ⟨c, hc, rfl⟩ := List.mem_map.1 (List.mem_reverse.1 hd)
  exact digitValue_lt (h c hc)

theorem map_digitValue_eq_iff {a b : List Char} (h : AreHexDigits a) :
    a.map digitValue = b.map digitValue ↔ a.map Char.toLower = b.map Char.toLower := by
  induction a generalizing b with
  | nil => simp only [List.map_nil, List.nil_eq, List.map_eq_nil_iff]
  | cons c a ih =>
    obtain ⟨hc, ha⟩ := areHexDigits_cons.1 h
    cases b with
    | nil => simp
    | cons d b =>
      rw [List.map_cons, List.map_cons, List.map_cons, List.map_cons, List.cons.injEq,
        List.cons.injEq, digitValue_inj hc, ih ha]

/-- Numerals of one length have one value only if they are equal up to the case of letters. -/
theorem numeral_inj {count : Nat} {a b : List Char} (ha : IsNumeral count a)
    (hb : IsNumeral count b) :
    numeral a = numeral b ↔ a.map Char.toLower = b.map Char.toLower := by
  rw [← map_digitValue_eq_iff ha.2]
  constructor
  · intro h
    have hlength : (a.map digitValue).reverse.length = (b.map digitValue).reverse.length := by
      simp [ha.1, hb.1]
    exact List.reverse_injective <| Nat.ofDigits_inj_of_len_eq (by decide) hlength
      (mem_digits_lt ha.2) (mem_digits_lt hb.2) h
  · intro h
    rw [numeral, numeral, h]

/-- Digits read from the front: what was read so far moves up by one place for each. -/
theorem foldlM_hexValue? (text : List Char) (start : Nat) :
    text.foldlM (fun n c => (Json.hexValue? c).map (n * 16 + ·)) start =
      if AreHexDigits text then some (start * 16 ^ text.length + numeral text) else none := by
  induction text generalizing start with
  | nil => simp [numeral]
  | cons c text ih =>
    rw [List.foldlM_cons, hexValue?_eq]
    by_cases hc : IsHexDigit c
    · have hplace : (start * 16 + digitValue c) * 16 ^ text.length + numeral text =
          start * 16 ^ (text.length + 1) + numeral (c :: text) := by
        rw [numeral_cons]
        ring
      simp only [hc, if_true, Option.map_some, Option.bind_eq_bind, Option.bind_some, ih, hplace,
        areHexDigits_cons, true_and, List.length_cons]
    · simp [hc]

end CodeIndex
