import Mathlib.Data.List.TakeWhile
import CodeIndex.Proofs.Json.Strings

/-!
# Written values are read back

The compact text of a value is read back as that value if the value is put together as a writer
does: its numbers follow the grammar of numbers, and its strings and keys are written for texts.
A number has no end of its own, so the reader of a value has to meet a character behind it that
cannot belong to a number; in a compact text this is a comma or a closing bracket.

The reader is bounded by a number of steps.  The length of a text is enough for each value in it,
because every step into a value passes a character.

## Main definitions

* `Value.Written` are the values that a writer puts together.
* `Value.IsRead` says that a value is read back in front of whatever may follow it.

## Main results

* `isNumberChar_of_isNumber`: the grammar of numbers uses the characters of numbers only.
* `Value.Written.isRead`: written values are read back.
* `Value.Written.parse?_toText`: so is a text that holds nothing else.
* `parse?_ofStrings`: lists of texts survive.
-/

namespace CodeIndex.Json

/-! ## Numbers -/

theorem isNumberChar_of_isDigit {c : Char} (h : c.isDigit = true) : isNumberChar c = true := by
  simp [isNumberChar, h]

/-- Digits are followed by what continues them. -/
theorem isNumberChar_of_digitsThen {next : List Char → Bool} {text : List Char}
    (h : digitsThen next text = true)
    (hnext : ∀ rest, next rest = true → ∀ c ∈ rest, isNumberChar c = true) :
    ∀ c ∈ text, isNumberChar c = true := by
  cases text with
  | nil => cases h
  | cons first rest =>
    obtain ⟨hfirst, hrest⟩ := Bool.and_eq_true_iff.1 h
    intro c hc
    rw [← List.takeWhile_append_dropWhile (p := Char.isDigit) (l := rest), List.mem_cons,
      List.mem_append] at hc
    obtain rfl | hdigit | hbehind := hc
    · exact isNumberChar_of_isDigit hfirst
    · exact isNumberChar_of_isDigit (List.mem_takeWhile_imp hdigit)
    · exact hnext _ hrest c hbehind

theorem isNumberChar_of_isExponent {text : List Char} (h : isExponent text = true) :
    ∀ c ∈ text, isNumberChar c = true := by
  have hdigits : ∀ digits, digitsThen (·.isEmpty) digits = true →
      ∀ c ∈ digits, isNumberChar c = true := fun digits hdigits =>
    isNumberChar_of_digitsThen hdigits fun rest hrest c hc => by
      rw [List.isEmpty_iff.1 hrest] at hc
      cases hc
  cases text with
  | nil => simp
  | cons e rest =>
    obtain ⟨he, hrest⟩ := Bool.and_eq_true_iff.1 h
    have hletter : isNumberChar e = true := by
      obtain he | he := Bool.or_eq_true_iff.1 he
      · simp [isNumberChar, he]
      · simp [isNumberChar, he]
    refine List.forall_mem_cons.2 ⟨hletter, ?_⟩
    cases rest with
    | nil => simp
    | cons sign digits =>
      by_cases hsign : (sign == '+' || sign == '-') = true
      · have hsignChar : isNumberChar sign = true := by
          obtain hplus | hminus := Bool.or_eq_true_iff.1 hsign
          · simp [isNumberChar, hplus]
          · simp [isNumberChar, hminus]
        simp only [hsign, if_true] at hrest
        exact List.forall_mem_cons.2 ⟨hsignChar, hdigits digits hrest⟩
      · simp only [hsign] at hrest
        exact hdigits _ hrest

theorem isNumberChar_of_isFraction {text : List Char} (h : isFraction text = true) :
    ∀ c ∈ text, isNumberChar c = true := by
  unfold isFraction at h
  split at h
  · exact List.forall_mem_cons.2
      ⟨rfl, isNumberChar_of_digitsThen h fun _ => isNumberChar_of_isExponent⟩
  · exact isNumberChar_of_isExponent h

theorem isNumberChar_of_isUnsigned {text : List Char} (h : isUnsigned text = true) :
    ∀ c ∈ text, isNumberChar c = true := by
  unfold isUnsigned at h
  split at h
  · exact List.forall_mem_cons.2 ⟨rfl, isNumberChar_of_isFraction h⟩
  · exact isNumberChar_of_digitsThen h fun _ => isNumberChar_of_isFraction

/-- Numbers are made of the characters of numbers. -/
theorem isNumberChar_of_isNumber {text : List Char} (h : isNumber text = true) :
    ∀ c ∈ text, isNumberChar c = true := by
  unfold isNumber at h
  split at h
  · exact List.forall_mem_cons.2 ⟨rfl, isNumberChar_of_isUnsigned h⟩
  · exact isNumberChar_of_isUnsigned h

/-! ## Written values -/

namespace Value

/-- A value as a writer puts it together. -/
inductive Written : Value → Prop
  | null : Written .null
  | bool (value : Bool) : Written (.bool value)
  | number {text : List Char} (h : isNumber text = true) : Written (.number text)
  | string (text : List Char) : Written (.string (escape text))
  | array {items : List Value} (h : ∀ item ∈ items, Written item) : Written (.array items)
  | object {members : List (List Char × Value)}
    (keys : ∀ member ∈ members, ∃ text, member.1 = escape text)
    (values : ∀ member ∈ members, Written member.2) : Written (.object members)

/-- The text cannot go on with a number. -/
def EndsNumber (rest : List Char) : Prop := ∀ c ∈ rest.head?, isNumberChar c = false

/-- The text of a value is read back, whatever comes behind it, and its length bounds the steps. -/
def IsRead (value : Value) : Prop :=
  ∀ (fuel : Nat) (rest : List Char), EndsNumber rest → value.render.length < fuel →
    parseValue fuel (value.render ++ rest) = some (value, rest)

theorem isRead_of_succ {value : Value}
    (h : ∀ (fuel : Nat) (rest : List Char), EndsNumber rest → value.render.length ≤ fuel →
      parseValue (fuel + 1) (value.render ++ rest) = some (value, rest)) : value.IsRead := by
  intro fuel rest hrest hfuel
  obtain ⟨fuel, rfl⟩ : ∃ n, fuel = n + 1 := ⟨fuel - 1, by omega⟩
  exact h fuel rest hrest (Nat.le_of_lt_succ hfuel)

theorem endsNumber_cons {c : Char} (h : isNumberChar c = false) (rest : List Char) :
    EndsNumber (c :: rest) := by
  intro d hd
  obtain rfl := Option.some.inj hd
  exact h

theorem renderItems_cons_cons (first second : Value) (rest : List Value) :
    renderItems (first :: second :: rest) =
      first.render ++ ',' :: renderItems (second :: rest) := by
  rw [renderItems]
  simp

theorem renderMembers_cons_cons (first second : List Char × Value)
    (rest : List (List Char × Value)) :
    renderMembers (first :: second :: rest) =
      '"' :: (first.1 ++
        '"' :: ':' :: (first.2.render ++ ',' :: renderMembers (second :: rest))) := by
  rw [renderMembers]
  simp

/-- A written value starts with a character that neither is a blank nor closes an array. -/
theorem Written.render_eq_cons {value : Value} (h : value.Written) :
    ∃ c tail, value.render = c :: tail ∧ isBlank c = false ∧ c ≠ ']' := by
  cases h with
  | null => exact ⟨_, _, rfl, by decide, by decide⟩
  | bool value =>
    cases value
    · exact ⟨_, _, rfl, by decide, by decide⟩
    · exact ⟨_, _, rfl, by decide, by decide⟩
  | @number text h =>
    cases text with
    | nil => cases h
    | cons c tail =>
      have hchar := isNumberChar_of_isNumber h c List.mem_cons_self
      refine ⟨c, tail, rfl, ?_, ?_⟩
      · rw [Bool.eq_false_iff]
        intro hblank
        simp only [isBlank, Bool.or_eq_true, beq_iff_eq] at hblank
        obtain ((rfl | rfl) | rfl) | rfl := hblank <;> cases hchar
      · rintro rfl
        cases hchar
  | string text => exact ⟨_, _, rfl, by decide, by decide⟩
  | array h => exact ⟨_, _, rfl, by decide, by decide⟩
  | object keys values => exact ⟨_, _, rfl, by decide, by decide⟩

/-- So does the text of the items of an array. -/
theorem renderItems_eq_cons {item : Value} (h : item.Written) (items : List Value) :
    ∃ c tail, renderItems (item :: items) = c :: tail ∧ isBlank c = false ∧ c ≠ ']' := by
  obtain ⟨c, tail, hitem, hc⟩ := h.render_eq_cons
  cases items with
  | nil => exact ⟨c, tail, hitem, hc⟩
  | cons next items =>
    refine ⟨c, tail ++ ',' :: renderItems (next :: items), ?_, hc⟩
    rw [renderItems_cons_cons, hitem, List.cons_append]

end Value

theorem skipBlank_cons {c : Char} (h : isBlank c = false) (rest : List Char) :
    skipBlank (c :: rest) = c :: rest :=
  List.dropWhile_cons_of_neg (Bool.eq_false_iff.1 h)

open Value (Written IsRead EndsNumber renderItems renderMembers)

/-! ## Reading values -/

theorem parseValue_number {text rest : List Char} (h : isNumber text = true)
    (hrest : EndsNumber rest) (fuel : Nat) :
    parseValue (fuel + 1) (text ++ rest) = some (.number text, rest) := by
  have hchars := isNumberChar_of_isNumber h
  have htake : (text ++ rest).takeWhile isNumberChar = text := by
    have hstop : rest.takeWhile isNumberChar = [] := by
      cases rest with
      | nil => rfl
      | cons c rest => exact List.takeWhile_cons_of_neg (Bool.eq_false_iff.1 (hrest c rfl))
    rw [List.takeWhile_append_of_pos hchars, hstop, List.append_nil]
  obtain ⟨c, tail, htext, hblank, -⟩ := (Written.number h).render_eq_cons
  obtain rfl : text = c :: tail := htext
  have hc := hchars c List.mem_cons_self
  -- No other kind of value starts with a character of a number.
  unfold parseValue
  rw [List.cons_append, skipBlank_cons hblank]
  rw [List.cons_append] at htake
  split
  case h_7 => simp [htake, h]
  all_goals
    next heq =>
      obtain ⟨rfl, -⟩ := List.cons.inj heq
      cases hc

theorem parseValue_string (text rest : List Char) (fuel : Nat) :
    parseValue (fuel + 1) ((Value.string (escape text)).render ++ rest) =
      some (.string (escape text), rest) := by
  have hscan := scanString_escape text [] rest
  simp [Value.render, parseValue, skipBlank, isBlank, hscan]

/-- Items take two steps each, one for the value and one for what follows. -/
theorem parseItems_render {items : List Value} (hitems : ∀ item ∈ items, item.IsRead)
    (hne : items ≠ []) (read : List Value) (rest : List Char) (fuel : Nat)
    (hfuel : (renderItems items).length + 2 ≤ fuel) :
    parseItems fuel read (renderItems items ++ ']' :: rest) =
      some (read.reverse ++ items, rest) := by
  induction items generalizing read fuel with
  | nil => exact absurd rfl hne
  | cons item items ih =>
    obtain ⟨fuel, rfl⟩ : ∃ n, fuel = n + 1 := ⟨fuel - 1, by omega⟩
    obtain ⟨hitem, hmore⟩ := List.forall_mem_cons.1 hitems
    cases items with
    | nil =>
      have hvalue := hitem fuel (']' :: rest) (Value.endsNumber_cons rfl rest)
        (Nat.le_of_succ_le_succ hfuel)
      simp [renderItems, parseItems, hvalue, skipBlank, isBlank]
    | cons next items =>
      rw [Value.renderItems_cons_cons, List.length_append, List.length_cons] at hfuel
      have hvalue := hitem fuel (',' :: (renderItems (next :: items) ++ ']' :: rest))
        (Value.endsNumber_cons rfl _) (by omega)
      have hrest := ih hmore (by simp) (item :: read) fuel (by omega)
      rw [Value.renderItems_cons_cons, List.append_assoc, List.cons_append, parseItems, hvalue]
      simpa [skipBlank, isBlank] using hrest

theorem parseMembers_render {members : List (List Char × Value)}
    (hkeys : ∀ member ∈ members, ∃ text, member.1 = escape text)
    (hvalues : ∀ member ∈ members, member.2.IsRead) (hne : members ≠ [])
    (read : List (List Char × Value)) (rest : List Char) (fuel : Nat)
    (hfuel : (renderMembers members).length + 2 ≤ fuel) :
    parseMembers fuel read (renderMembers members ++ '\x7d' :: rest) =
      some (read.reverse ++ members, rest) := by
  induction members generalizing read fuel with
  | nil => exact absurd rfl hne
  | cons member members ih =>
    obtain ⟨fuel, rfl⟩ : ∃ n, fuel = n + 1 := ⟨fuel - 1, by omega⟩
    obtain ⟨⟨text, hkey⟩, hmoreKeys⟩ := List.forall_mem_cons.1 hkeys
    obtain ⟨hvalue, hmoreValues⟩ := List.forall_mem_cons.1 hvalues
    obtain ⟨key, value⟩ := member
    obtain rfl : key = escape text := hkey
    cases members with
    | nil =>
      have hlength : value.render.length < fuel := by
        simp only [renderMembers, List.length_cons, List.length_append] at hfuel
        omega
      have hread := hvalue fuel ('\x7d' :: rest) (Value.endsNumber_cons rfl rest) hlength
      have hscan := scanString_escape text [] (':' :: (value.render ++ '\x7d' :: rest))
      dsimp only at hread
      simp [renderMembers, parseMembers, hscan, hread, skipBlank, isBlank]
    | cons next members =>
      rw [Value.renderMembers_cons_cons] at hfuel ⊢
      simp only [List.length_cons, List.length_append] at hfuel
      have hread := hvalue fuel (',' :: (renderMembers (next :: members) ++ '\x7d' :: rest))
        (Value.endsNumber_cons rfl _) (by dsimp only; omega)
      have hscan := scanString_escape text []
        (':' :: (value.render ++ ',' :: (renderMembers (next :: members) ++ '\x7d' :: rest)))
      have hrest := ih hmoreKeys hmoreValues (by simp) ((escape text, value) :: read) fuel
        (by omega)
      dsimp only at hread
      simpa [parseMembers, hscan, hread, skipBlank, isBlank] using hrest

/-- An array is read back if its items are. -/
theorem parseValue_array {items : List Value} (hwritten : ∀ item ∈ items, item.Written)
    (hitems : ∀ item ∈ items, item.IsRead) (rest : List Char) (fuel : Nat)
    (hfuel : (renderItems items).length + 2 ≤ fuel) :
    parseValue (fuel + 1) ((Value.array items).render ++ rest) = some (.array items, rest) := by
  cases items with
  | nil => simp [Value.render, renderItems, parseValue, skipBlank, isBlank]
  | cons item items =>
    have hread := parseItems_render hitems (by simp) [] rest fuel hfuel
    obtain ⟨c, tail, htext, hblank, hclose⟩ :=
      Value.renderItems_eq_cons (hwritten item List.mem_cons_self) items
    have hskip := skipBlank_cons hblank (tail ++ ']' :: rest)
    rw [htext, List.cons_append] at hread
    rw [Value.render, htext]
    simp only [List.cons_append, List.append_assoc, List.nil_append]
    rw [parseValue, skipBlank_cons (by decide)]
    simp [hskip, hclose, hread]

/-- An object is read back if the values of its members are. -/
theorem parseValue_object {members : List (List Char × Value)}
    (hkeys : ∀ member ∈ members, ∃ text, member.1 = escape text)
    (hvalues : ∀ member ∈ members, member.2.IsRead) (rest : List Char) (fuel : Nat)
    (hfuel : (renderMembers members).length + 2 ≤ fuel) :
    parseValue (fuel + 1) ((Value.object members).render ++ rest) =
      some (.object members, rest) := by
  cases members with
  | nil => simp [Value.render, renderMembers, parseValue, skipBlank, isBlank]
  | cons member members =>
    have hread := parseMembers_render hkeys hvalues (by simp) [] rest fuel hfuel
    obtain ⟨tail, htext⟩ : ∃ tail, renderMembers (member :: members) = '"' :: tail := by
      cases members with
      | nil => exact ⟨_, rfl⟩
      | cons next members => exact ⟨_, Value.renderMembers_cons_cons member next members⟩
    rw [htext, List.cons_append] at hread
    rw [Value.render, htext]
    simp only [List.cons_append, List.append_assoc, List.nil_append]
    rw [parseValue, skipBlank_cons (by decide)]
    simp [skipBlank_cons, isBlank, hread]

/-- Written values are read back. -/
theorem Value.Written.isRead {value : Value} (h : value.Written) : value.IsRead := by
  induction h with
  | null =>
    refine isRead_of_succ fun fuel rest _ _ => ?_
    simp [render, parseValue, skipBlank, isBlank]
  | bool value =>
    refine isRead_of_succ fun fuel rest _ _ => ?_
    cases value <;> simp [render, parseValue, skipBlank, isBlank]
  | number h => exact isRead_of_succ fun fuel rest hrest _ => parseValue_number h hrest fuel
  | string text => exact isRead_of_succ fun fuel rest _ _ => parseValue_string text rest fuel
  | @array items h ih =>
    have hlength : (Value.array items).render.length = (renderItems items).length + 2 := by
      simp [render]
    exact isRead_of_succ fun fuel rest _ hfuel =>
      parseValue_array h ih rest fuel (hlength ▸ hfuel)
  | @object members keys values ih =>
    have hlength : (Value.object members).render.length = (renderMembers members).length + 2 := by
      simp [render]
    exact isRead_of_succ fun fuel rest _ hfuel =>
      parseValue_object keys ih rest fuel (hlength ▸ hfuel)

/-- The compact text of a written value is read as that value. -/
theorem Value.Written.parse?_toText {value : Value} (h : value.Written) :
    parse? value.toText.toList = some value := by
  have hread := h.isRead (2 * value.render.length + 2) [] (by simp [Value.EndsNumber]) (by omega)
  rw [List.append_nil] at hread
  simp [parse?, Value.toText, hread, skipBlank]

/-! ## Lists of strings -/

@[simp] theorem Value.written_ofString (text : String) : (ofString text).Written :=
  .string text.toList

@[simp] theorem Value.written_ofStrings (texts : List String) : (ofStrings texts).Written :=
  .array (List.forall_mem_map.2 fun text _ => written_ofString text)

/-- A list of texts that was written as JSON is read back. -/
theorem parse?_ofStrings (texts : List String) :
    (parse? (Value.ofStrings texts).toText.toList).bind Value.strings? = some texts := by
  rw [(Value.written_ofStrings texts).parse?_toText]
  exact Value.strings?_ofStrings texts

end CodeIndex.Json
