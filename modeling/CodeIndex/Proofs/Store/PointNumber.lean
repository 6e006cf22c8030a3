import CodeIndex.Store.Vector
import CodeIndex.Proofs.Text.Hexadecimal

/-!
# The numbers of points

The vector service knows a chunk by a number, and two chunks with one number share a vector.  The
number is read from the identifier: sixteen octets that the general reader of integers takes for a
hexadecimal number.  That reader has a grammar of its own, in which a plus sign may stand before
the digits, so that a sign and fifteen digits pass for an identifier as well.

## Main definitions

* `strictNumber` is the reader of identifiers proper, sixteen digits and nothing else.
* `IsSigned`: a plus sign and fifteen digits.

## Main results

* `pointNumber_eq`: a leading plus sign counts as a zero; apart from that, the identifiers are the
  numerals of sixteen digits and the number is their value.
* `point_number_strict_iff`: the reader is the strict one exactly on the texts that are not signed,
  and numbers are shared up to case and sign.
-/

namespace CodeIndex

/-! ## The grammar -/

/-- The number of sixteen hexadecimal digits; any other text is no identifier. -/
def strictNumber (id : String) : Except StoreError Nat :=
  if IsNumeral 16 id.toList then .ok (numeral id.toList) else .error (.invalidId id)

/-- A plus sign and fifteen digits. -/
def IsSigned (id : String) : Prop :=
  ∃ digits, id.toList = '+' :: digits ∧ IsNumeral 15 digits

/-- The text with a leading plus sign replaced by a zero. -/
def unsigned : List Char → List Char
  | '+' :: rest => '0' :: rest
  | text => text

theorem unsigned_of_forall_ne {text : List Char} (h : ∀ rest, text ≠ '+' :: rest) :
    unsigned text = text := by
  unfold unsigned
  split
  · exact absurd rfl (h _)
  · rfl

theorem isNumeral_zero_cons {count : Nat} {digits : List Char} :
    IsNumeral (count + 1) ('0' :: digits) ↔ IsNumeral count digits := by
  have hzero : IsHexDigit '0' := by decide
  simp [IsNumeral, hzero]

theorem not_isNumeral_plus_cons (count : Nat) (rest : List Char) :
    ¬ IsNumeral count ('+' :: rest) := by
  have hplus : ¬ IsHexDigit '+' := by decide
  exact fun h => hplus (h.2 _ List.mem_cons_self)

/-- A numeral has no sign. -/
theorem unsigned_of_isNumeral {count : Nat} {text : List Char} (h : IsNumeral count text) :
    unsigned text = text :=
  unsigned_of_forall_ne fun rest htext => not_isNumeral_plus_cons count rest (htext ▸ h)

/-! ## The reader -/

/-- A text of one-octet characters has as many octets as characters. -/
theorem utf8ByteSize_eq_length {id : String} (h : ∀ c ∈ id.toList, c.utf8Size = 1) :
    id.utf8ByteSize = id.toList.length := by
  suffices hlist : ∀ text : List Char, (∀ c ∈ text, c.utf8Size = 1) →
      (String.ofList text).utf8ByteSize = text.length by
    have hid := hlist id.toList h
    rwa [String.ofList_toList] at hid
  intro text htext
  induction text with
  | nil => rfl
  | cons c text ih =>
    rw [String.ofList_cons, String.utf8ByteSize_append, String.utf8ByteSize_singleton,
      htext c List.mem_cons_self, ih fun d hd => htext d (List.mem_cons_of_mem c hd),
      List.length_cons, Nat.add_comm]

theorem hexNumber?_eq (digits : List Char) :
    hexNumber? digits =
      if digits ≠ [] ∧ AreHexDigits digits then some (numeral digits) else none := by
  unfold hexNumber?
  rw [foldlM_hexValue?]
  cases digits <;> simp

/-- What stands behind the sign, if there is one, and the octets of the whole decide: sixteen
octets of which all are digits but for the sign. -/
theorem pointNumber_of_digits {id : String} {digits : List Char} (sign : List Char)
    (hid : id.toList = sign ++ digits) (hsign : ∀ c ∈ sign, c.utf8Size = 1)
    (hshort : sign.length < 16) :
    (if id.utf8ByteSize = pointNumber.idLength then hexNumber? digits else none) =
      if IsNumeral (16 - sign.length) digits then some (numeral digits) else none := by
  by_cases hdigits : AreHexDigits digits
  · have hsize : id.utf8ByteSize = sign.length + digits.length := by
      rw [utf8ByteSize_eq_length, hid, List.length_append]
      intro c hc
      rw [hid, List.mem_append] at hc
      exact hc.elim (hsign c) fun hc => (hdigits c hc).utf8Size
    have hlength : IsNumeral (16 - sign.length) digits ↔ id.utf8ByteSize = 16 := by
      rw [IsNumeral, hsize, and_iff_left hdigits]
      omega
    rw [hexNumber?_eq, pointNumber.idLength]
    by_cases hsixteen : id.utf8ByteSize = 16
    · have hne : digits ≠ [] := by
        rintro rfl
        simp only [List.length_nil] at hsize
        omega
      rw [if_pos hsixteen, if_pos ⟨hne, hdigits⟩, if_pos (hlength.2 hsixteen)]
    · rw [if_neg hsixteen, if_neg fun h => hsixteen (hlength.1 h)]
  · have hnone : hexNumber? digits = none := by
      rw [hexNumber?_eq, if_neg fun h => hdigits h.2]
    rw [hnone, ite_self, if_neg fun h => hdigits h.2]

/-- A leading plus sign counts as a zero. -/
theorem pointNumber_eq (id : String) :
    pointNumber id =
      if IsNumeral 16 (unsigned id.toList) then .ok (numeral (unsigned id.toList))
      else .error (.invalidId id) := by
  unfold pointNumber
  split
  · rename_i rest hid
    have hread := pointNumber_of_digits ['+'] hid (List.forall_mem_singleton.2 rfl) (by decide)
    simp only [hread, hid, unsigned, List.length_singleton, isNumeral_zero_cons,
      numeral_zero_cons]
    by_cases hnumeral : IsNumeral 15 rest <;> simp [hnumeral]
  · rename_i text hplain
    have hread := pointNumber_of_digits [] (List.nil_append id.toList).symm (by simp) (by decide)
    simp only [hread, unsigned_of_forall_ne hplain, List.length_nil, Nat.sub_zero]
    by_cases hnumeral : IsNumeral 16 id.toList <;> simp [hnumeral]

theorem pointNumber_ok_iff {id : String} {n : Nat} :
    pointNumber id = .ok n ↔
      IsNumeral 16 (unsigned id.toList) ∧ numeral (unsigned id.toList) = n := by
  rw [pointNumber_eq]
  by_cases hnumeral : IsNumeral 16 (unsigned id.toList) <;> simp [hnumeral]

theorem pointNumber_of_isNumeral {id : String} (h : IsNumeral 16 id.toList) :
    pointNumber id = .ok (numeral id.toList) := by
  rw [pointNumber_eq, unsigned_of_isNumeral h, if_pos h]

/-! ## The strict reader -/

theorem isSigned_iff {id : String} :
    IsSigned id ↔ IsNumeral 16 (unsigned id.toList) ∧ ¬ IsNumeral 16 id.toList := by
  constructor
  · rintro ⟨digits, hid, hdigits⟩
    rw [hid]
    exact ⟨isNumeral_zero_cons.2 hdigits, not_isNumeral_plus_cons 16 digits⟩
  · rintro ⟨hnumeral, hplain⟩
    by_cases hsign : ∃ digits, id.toList = '+' :: digits
    · obtain ⟨digits, hid⟩ := hsign
      rw [hid] at hnumeral
      exact ⟨digits, hid, isNumeral_zero_cons.1 hnumeral⟩
    · rw [unsigned_of_forall_ne fun digits hid => hsign ⟨digits, hid⟩] at hnumeral
      exact absurd hnumeral hplain

/-- A sign before fifteen digits is the only thing on which the two readers differ. -/
theorem pointNumber_eq_strictNumber_iff (id : String) :
    pointNumber id = strictNumber id ↔ ¬ IsSigned id := by
  rw [pointNumber_eq, strictNumber, isSigned_iff]
  by_cases hplain : IsNumeral 16 id.toList
  · simp [unsigned_of_isNumeral hplain, hplain]
  · by_cases hnumeral : IsNumeral 16 (unsigned id.toList) <;> simp [hplain, hnumeral]

/-- An identifier with a number that is not signed is its own numeral. -/
theorem unsigned_of_not_isSigned {id : String} (hnumeral : IsNumeral 16 (unsigned id.toList))
    (h : ¬ IsSigned id) : unsigned id.toList = id.toList := by
  refine unsigned_of_forall_ne fun digits hid => h ⟨digits, hid, ?_⟩
  rw [hid] at hnumeral
  exact isNumeral_zero_cons.1 hnumeral

/-- Of two identifiers that agree up to case, the first is signed only if the second is: the sign
is not a letter. -/
theorem IsSigned.of_toLower_eq {id other : String} (h : IsSigned id)
    (hother : IsNumeral 16 (unsigned other.toList))
    (hcase : id.toList.map Char.toLower = other.toList.map Char.toLower) : IsSigned other := by
  by_contra hplain
  obtain ⟨digits, hid, -⟩ := h
  rw [unsigned_of_not_isSigned hother hplain] at hother
  cases htext : other.toList with
  | nil => simp [hid, htext] at hcase
  | cons c rest =>
    have hplus : '+'.toLower ∉ hexAlphabet := by decide
    have hfirst : '+'.toLower = c.toLower := by
      rw [hid, htext, List.map_cons, List.map_cons] at hcase
      exact (List.cons.inj hcase).1
    rw [htext] at hother
    exact hplus (hfirst ▸ hother.2 c List.mem_cons_self)

/-- Identifiers without signs that share a number agree up to case, and so do signed ones; a signed
and an unsigned one that share a number differ in their first character. -/
theorem toLower_eq_iff_isSigned_iff {id other : String}
    (hid : IsNumeral 16 (unsigned id.toList)) (hother : IsNumeral 16 (unsigned other.toList))
    (h : (unsigned id.toList).map Char.toLower = (unsigned other.toList).map Char.toLower) :
    id.toList.map Char.toLower = other.toList.map Char.toLower ↔
      (IsSigned id ↔ IsSigned other) := by
  constructor
  · intro hcase
    exact ⟨fun hsigned => hsigned.of_toLower_eq hother hcase,
      fun hsigned => hsigned.of_toLower_eq hid hcase.symm⟩
  · intro hsign
    by_cases hsigned : IsSigned id
    · obtain ⟨digits', htext', -⟩ := hsign.1 hsigned
      obtain ⟨digits, htext, -⟩ := hsigned
      rw [htext, htext'] at h ⊢
      exact congrArg ('+' :: ·) (List.cons.inj h).2
    · rwa [unsigned_of_not_isSigned hid hsigned,
        unsigned_of_not_isSigned hother fun hs => hsigned (hsign.2 hs)] at h

/-- The reader of point numbers is the strict one on every text but a plus sign and fifteen digits,
to which it gives the value of the digits.  Identifiers that share a number read the same up to case
once a sign is taken for a zero; so they agree up to case themselves exactly if both or neither of
them is signed. -/
theorem point_number_strict_iff (id other : String) :
    (pointNumber id = strictNumber id ↔ ¬ IsSigned id) ∧
    (∀ digits, id.toList = '+' :: digits → IsNumeral 15 digits →
      pointNumber id = .ok (numeral digits)) ∧
    ∀ n, pointNumber id = .ok n → pointNumber other = .ok n →
      (unsigned id.toList).map Char.toLower = (unsigned other.toList).map Char.toLower ∧
      (id.toList.map Char.toLower = other.toList.map Char.toLower ↔
        (IsSigned id ↔ IsSigned other)) := by
  refine ⟨pointNumber_eq_strictNumber_iff id, fun digits hid hdigits => ?_, fun n hn hn' => ?_⟩
  · rw [pointNumber_ok_iff, hid]
    exact ⟨isNumeral_zero_cons.2 hdigits, numeral_zero_cons digits⟩
  · obtain ⟨hid, hvalue⟩ := pointNumber_ok_iff.1 hn
    obtain ⟨hother, hvalue'⟩ := pointNumber_ok_iff.1 hn'
    have hcase := (numeral_inj hid hother).1 (hvalue.trans hvalue'.symm)
    exact ⟨hcase, toLower_eq_iff_isSigned_iff hid hother hcase⟩

/-- A signed identifier takes the point of the chunk whose identifier has a zero in that place. -/
theorem point_number_strict_signed :
    pointNumber "+00000000000000f" = .ok 15 ∧ pointNumber "000000000000000F" = .ok 15 ∧
    strictNumber "+00000000000000f" = .error (.invalidId "+00000000000000f") ∧
    "+00000000000000f".toList.map Char.toLower ≠ "000000000000000F".toList.map Char.toLower := by
  have hgrammar := point_number_strict_iff "+00000000000000f" "000000000000000F"
  have hsigned : IsSigned "+00000000000000f" := ⟨"00000000000000f".toList, by decide, by decide⟩
  have hplain : ¬ IsSigned "000000000000000F" := by
    rintro ⟨digits, htext, -⟩
    cases htext
  have hfirst : pointNumber "+00000000000000f" = .ok 15 :=
    hgrammar.2.1 "00000000000000f".toList (by decide) (by decide)
  have hsecond : pointNumber "000000000000000F" = .ok 15 :=
    (point_number_strict_iff "000000000000000F" "").1.2 hplain
  refine ⟨hfirst, hsecond, by decide, fun hcase => hplain ?_⟩
  exact ((hgrammar.2.2 15 hfirst hsecond).2.1 hcase).1 hsigned

end CodeIndex
