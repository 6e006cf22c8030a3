import Mathlib.Data.List.Basic
import CodeIndex.Json.Codec
import CodeIndex.Proofs.Json.Values

/-!
# Fields of records are read back

What the fields of a record are made of is read as it was written: numbers within the range of
their type, and values that may be missing.  A number is written with its digits only, the first of
which is a zero only if there is no other, so it follows the grammar of numbers, and its digits have
its value.

The fields of a record are found under their names, because a record has each name once and no
other names than those that are looked for.

## Main definitions

* `InRange` are the integers of 64 bits with sign.
* `Survives` says that a record is read back from its compact text.

## Main results

* `Value.natural?_ofNat`, `Value.integer?_ofInt`: numbers in range are read back.
* `Fields.ofValue?_ofFields`: the fields of a record are found as they were written.
-/

namespace CodeIndex.Json

/-! ## Digits -/

theorem ofDigits_toDigits (n : Nat) : ofDigits (Nat.toDigits 10 n) = n := by
  have hcore := Nat.ofDigitChars_toDigits (b := 10) (n := n) (by decide) (by decide)
  simpa [ofDigits, Nat.ofDigitChars, Nat.mul_comm] using hcore

theorem isDigit_toDigits (n : Nat) : ∀ c ∈ Nat.toDigits 10 n, c.isDigit = true :=
  fun _ hc => Nat.isDigit_of_mem_toDigits (by decide) (by decide) hc

/-- A number other than zero does not start with a zero. -/
theorem head?_toDigits {n : Nat} (h : 0 < n) : (Nat.toDigits 10 n).head? ≠ some '0' := by
  induction n using Nat.strongRecOn with
  | ind n ih =>
    by_cases hsmall : n < 10
    · rw [Nat.toDigits_of_lt_base hsmall, List.head?_cons]
      intro hzero
      have hvalue := Nat.toNat_digitChar_of_lt_ten hsmall
      rw [Option.some.inj hzero] at hvalue
      have hchar : '0'.toNat = 48 := rfl
      omega
    · have hbefore := ih (n / 10) (by omega) (by omega)
      rw [Nat.toDigits_of_base_le (by decide) (Nat.le_of_not_lt hsmall),
        List.head?_append_of_ne_nil _ Nat.toDigits_ne_nil]
      exact hbefore

/-- The digits of a number follow the grammar. -/
theorem isUnsigned_toDigits (n : Nat) : isUnsigned (Nat.toDigits 10 n) = true := by
  have hdigits := isDigit_toDigits n
  rcases Nat.eq_zero_or_pos n with rfl | hpos
  · rfl
  · have hhead := head?_toDigits hpos
    cases htext : Nat.toDigits 10 n with
    | nil => exact absurd htext Nat.toDigits_ne_nil
    | cons c rest =>
      rw [htext] at hdigits hhead
      have hzero : c ≠ '0' := fun hc => hhead (congrArg some hc)
      obtain ⟨hc, hrest⟩ := List.forall_mem_cons.1 hdigits
      have hend : rest.dropWhile Char.isDigit = [] := List.dropWhile_eq_nil_iff.2 hrest
      simp [isUnsigned, hzero, digitsThen, hc, hend, isFraction, isExponent]

theorem isNumber_toDigits (n : Nat) : isNumber (Nat.toDigits 10 n) = true := by
  have hunsigned := isUnsigned_toDigits n
  have hdigits := isDigit_toDigits n
  cases htext : Nat.toDigits 10 n with
  | nil => exact absurd htext Nat.toDigits_ne_nil
  | cons c rest =>
    rw [htext] at hunsigned hdigits
    have hsign : c ≠ '-' := by
      rintro rfl
      cases hdigits '-' List.mem_cons_self
    simpa [isNumber, hsign] using hunsigned

/-! ## Numbers -/

/-- The integers of 64 bits with sign. -/
def InRange (i : Int) : Prop := -0x8000000000000000 ≤ i ∧ i < 0x8000000000000000

instance (i : Int) : Decidable (InRange i) := inferInstanceAs (Decidable (_ ∧ _))

namespace Value

@[simp] theorem written_null : null.Written := .null

@[simp] theorem written_ofNat (n : Nat) : (ofNat n).Written := .number (isNumber_toDigits n)

@[simp] theorem written_ofInt (i : Int) : (ofInt i).Written := by
  unfold ofInt
  split
  · exact .number (isUnsigned_toDigits i.natAbs)
  · exact .number (isNumber_toDigits i.natAbs)

@[simp] theorem natural?_ofNat {n : Nat} (h : n ≤ maxUnsigned) : (ofNat n).natural? = some n := by
  have hall : (Nat.toDigits 10 n).all Char.isDigit = true := List.all_eq_true.2 (isDigit_toDigits n)
  simp only [ofNat, natural?, hall, ofDigits_toDigits, Bool.true_and]
  exact if_pos (decide_eq_true h)

/-- A number without sign is read as an integer if it is small enough. -/
theorem integer?_ofNat {n : Nat} (h : n < 0x8000000000000000) :
    (ofNat n).integer? = some (n : Int) := by
  have hnatural := natural?_ofNat (n := n) (by unfold maxUnsigned; omega)
  have hdigits := isDigit_toDigits n
  unfold integer?
  split
  · next digits heq =>
    have htext : Nat.toDigits 10 n = '-' :: digits := number.inj heq
    rw [htext] at hdigits
    cases hdigits '-' List.mem_cons_self
  · rw [hnatural]
    exact if_pos h

@[simp] theorem integer?_ofInt {i : Int} (h : InRange i) : (ofInt i).integer? = some i := by
  obtain ⟨hlow, hhigh⟩ := h
  by_cases hneg : i < 0
  · have hall : (Nat.toDigits 10 i.natAbs).all Char.isDigit = true :=
      List.all_eq_true.2 (isDigit_toDigits i.natAbs)
    have hpos : 0 < i.natAbs := by omega
    have hbound : i.natAbs ≤ 0x8000000000000000 := by omega
    have hvalue : -(i.natAbs : Int) = i := by omega
    simp only [ofInt, if_pos hneg, integer?, hall, ofDigits_toDigits, hpos, hbound]
    simpa using hvalue
  · have hofNat : ofInt i = ofNat i.natAbs := by rw [ofInt, if_neg hneg, ofNat]
    rw [hofNat, integer?_ofNat (by omega)]
    exact congrArg some (by omega)

/-! ## Options and alternatives -/

@[simp] theorem optional?_null {α : Type} (read : Value → Option α) :
    null.optional? read = some none := rfl

@[simp] theorem optional?_ofString (text : String) :
    (ofString text).optional? string? = some (some text) := by
  have hread : (ofString text).optional? string? = (ofString text).string?.map some := rfl
  rw [hread, string?_ofString]
  rfl

@[simp] theorem optional?_ofInt {i : Int} (h : InRange i) :
    (ofInt i).optional? integer? = some (some i) := by
  have hread : (ofInt i).optional? integer? = (ofInt i).integer?.map some := rfl
  rw [hread, integer?_ofInt h]
  rfl

/-- A name without content is written as a string. -/
@[simp] theorem variant?_ofString (name : String) : (ofString name).variant? = some name :=
  string?_ofString name

/-! ## Objects -/

theorem written_ofFields {fields : List (String × Value)}
    (h : ∀ field ∈ fields, field.2.Written) : (ofFields fields).Written :=
  .object (List.forall_mem_map.2 fun field _ => ⟨field.1.toList, rfl⟩) (List.forall_mem_map.2 h)

end Value

namespace Fields

/-- Fields with different names that are looked for are all taken. -/
theorem ofMembers_map {names : List String} {fields : List (String × Value)}
    (hnames : ∀ field ∈ fields, field.1 ∈ names) (hnodup : (fields.map Prod.fst).Nodup)
    (found : List (String × Value)) (hnew : ∀ field ∈ fields, ∀ old ∈ found, old.1 ≠ field.1) :
    ofMembers names found (fields.map fun field => (escape field.1.toList, field.2)) =
      some (found.reverse ++ fields) := by
  induction fields generalizing found with
  | nil => rw [List.map_nil, ofMembers, List.append_nil]
  | cons field rest ih =>
    obtain ⟨hname, hnames⟩ := List.forall_mem_cons.1 hnames
    obtain ⟨hfresh, hnodup⟩ := List.nodup_cons.1 hnodup
    obtain ⟨hunseen, hnew⟩ := List.forall_mem_cons.1 hnew
    have hrest := ih hnames hnodup (field :: found) fun later hlater =>
      List.forall_mem_cons.2
        ⟨fun heq => hfresh (heq ▸ List.mem_map_of_mem hlater), hnew later hlater⟩
    rw [List.map_cons, ofMembers, unescape?_escape]
    simp only [String.ofList_toList]
    have hany : (found.any fun old => old.1 == field.1) = false := by simpa using hunseen
    simp only [List.contains_iff_mem.2 hname, hany, Bool.not_true, Bool.false_eq_true, if_false]
    rw [hrest, List.reverse_cons, List.append_assoc, List.singleton_append]

/-- The fields of a record are found as they were written. -/
theorem ofValue?_ofFields {names : List String} {fields : List (String × Value)}
    (hnames : ∀ field ∈ fields, field.1 ∈ names) (hnodup : (fields.map Prod.fst).Nodup) :
    ofValue? names (.ofFields fields) = some ⟨fields, false⟩ := by
  rw [Value.ofFields, ofValue?, ofMembers_map hnames hnodup [] (by simp)]
  rfl

end Fields

/-! ## Records -/

/-- A record is read back from the compact text that is written for it. -/
def Survives {α : Type} (write : α → Value) (read : Value → Option α) (a : α) : Prop :=
  (parse? (write a).toText.toList).bind read = some a

theorem Survives.of_written {α : Type} {write : α → Value} {read : Value → Option α} {a : α}
    (hwritten : (write a).Written) (hread : read (write a) = some a) : Survives write read a := by
  rw [Survives, hwritten.parse?_toText]
  exact hread

end CodeIndex.Json
