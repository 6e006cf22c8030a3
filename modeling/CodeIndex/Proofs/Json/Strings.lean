import CodeIndex.Json.Codec

/-!
# Written strings are read back

A text that is written as the body of a string denotes that text, and an array of strings denotes
the list of texts that it was written for.  The argument goes by the three ways in which a character
is written: as itself, as a backslash with a letter, or by its number.

## Main results

* `unescape?_escape`: a body denotes the text that it was written for.
* `scanString_escape`: the body ends where it was closed.
* `Value.list?_map`: a list is read back if its items are.
* `Value.strings?_ofStrings`: an array of strings denotes the list that it was written for.
-/

namespace CodeIndex.Json

/-! ## Characters -/

theorem hexValue?_hexDigit {n : Nat} (h : n < 16) : hexValue? (hexDigit n) = some n := by
  have hall : ∀ m < 16, hexValue? (hexDigit m) = some m := by decide
  exact hall n h

/-- The three ways in which a character is written. -/
theorem escapeChar_cases (c : Char) :
    (∃ letter, simpleEscape? letter = some c ∧ escapeChar c = ['\\', letter]) ∨
    (∃ a b, hexValue4? '0' '0' a b = some c.toNat ∧ c.toNat < 0x20 ∧
      escapeChar c = ['\\', 'u', '0', '0', a, b]) ∨
    (escapeChar c = [c] ∧ ¬ c.val < 0x20 ∧ c ≠ '\\' ∧ c ≠ '"') := by
  unfold escapeChar
  by_cases hquote : c = '"'
  · exact .inl ⟨'"', by simp [hquote, simpleEscape?]⟩
  by_cases hback : c = '\\'
  · exact .inl ⟨'\\', by simp [hback, simpleEscape?]⟩
  by_cases hn : c = '\n'
  · exact .inl ⟨'n', by simp [hn, simpleEscape?]⟩
  by_cases hr : c = '\r'
  · exact .inl ⟨'r', by simp [hr, simpleEscape?]⟩
  by_cases ht : c = '\t'
  · exact .inl ⟨'t', by simp [ht, simpleEscape?]⟩
  by_cases hb : c = '\x08'
  · exact .inl ⟨'b', by simp [hb, simpleEscape?]⟩
  by_cases hf : c = '\x0c'
  · exact .inl ⟨'f', by simp [hf, simpleEscape?]⟩
  by_cases hcontrol : c.val < 0x20
  · have hsmall : c.toNat < 0x20 := hcontrol
    refine .inr (.inl ⟨hexDigit (c.toNat / 16), hexDigit (c.toNat % 16), ?_, hsmall, ?_⟩)
    · rw [hexValue4?, hexValue?_hexDigit (by omega), hexValue?_hexDigit (by omega)]
      have hzero : hexValue? '0' = some 0 := by decide
      simp [hzero]
      omega
    · simp [hquote, hback, hn, hr, ht, hb, hf, hcontrol]
  · exact .inr (.inr ⟨by simp [hquote, hback, hn, hr, ht, hb, hf, hcontrol], hcontrol, hback,
      hquote⟩)

/-! ## Bodies of strings -/

theorem scanString_escapeChar (c : Char) (read rest : List Char) :
    scanString read (escapeChar c ++ rest) = scanString ((escapeChar c).reverse ++ read) rest := by
  obtain ⟨letter, hletter, hc⟩ | ⟨a, b, hvalue, -, hc⟩ | ⟨hc, hcontrol, hback, hquote⟩ :=
    escapeChar_cases c
  · rw [hc]
    unfold simpleEscape? at hletter
    split at hletter <;> cases hletter <;> simp [scanString, simpleEscape?]
  · rw [hc]
    simp [scanString, hvalue]
  · rw [hc]
    simp [scanString, hcontrol, hback]

/-- The body of a string is cut off where it was closed. -/
theorem scanString_escape (text read rest : List Char) :
    scanString read (escape text ++ '"' :: rest) = some (read.reverse ++ escape text, rest) := by
  induction text generalizing read with
  | nil => simp [escape, scanString]
  | cons c text ih =>
    have hcons : escape (c :: text) = escapeChar c ++ escape text := rfl
    rw [hcons, List.append_assoc, scanString_escapeChar, ih]
    simp

theorem unescapeFrom_escapeChar (c : Char) (read rest : List Char) :
    unescapeFrom read none (escapeChar c ++ rest) = unescapeFrom (c :: read) none rest := by
  obtain ⟨letter, hletter, hc⟩ | ⟨a, b, hvalue, hsmall, hc⟩ | ⟨hc, hcontrol, hback, hquote⟩ :=
    escapeChar_cases c
  · rw [hc]
    unfold simpleEscape? at hletter
    split at hletter <;> cases hletter <;> simp [unescapeFrom, simpleEscape?]
  · rw [hc]
    have hhigh : ¬ (0xD800 ≤ c.toNat ∧ c.toNat < 0xDC00) := by omega
    have hlow : ¬ (0xDC00 ≤ c.toNat ∧ c.toNat < 0xE000) := by omega
    simp [unescapeFrom, hvalue, hhigh, hlow]
  · rw [hc]
    simp [unescapeFrom, hback]

/-- The body that is written for a text denotes it. -/
theorem unescape?_escape (text : List Char) : unescape? (escape text) = some text := by
  suffices h : ∀ read, unescapeFrom read none (escape text) = some (read.reverse ++ text) by
    exact h []
  induction text with
  | nil => simp [escape, unescapeFrom]
  | cons c text ih =>
    intro read
    have hcons : escape (c :: text) = escapeChar c ++ escape text := rfl
    rw [hcons, unescapeFrom_escapeChar, ih]
    simp

/-! ## Strings and lists -/

namespace Value

@[simp] theorem string?_ofString (text : String) : (ofString text).string? = some text := by
  simp [ofString, string?, unescape?_escape, String.ofList_toList]

/-- A list is read back if its items are. -/
theorem list?_map {α : Type} {write : α → Value} {read : Value → Option α} {items : List α}
    (h : ∀ item ∈ items, read (write item) = some item) :
    (Value.array (items.map write)).list? read = some items := by
  rw [list?]
  induction items with
  | nil => rfl
  | cons item rest ih =>
    obtain ⟨hitem, hrest⟩ := List.forall_mem_cons.1 h
    rw [List.map_cons, List.mapM_cons, hitem, ih hrest]
    rfl

@[simp] theorem strings?_ofStrings (texts : List String) :
    (ofStrings texts).strings? = some texts :=
  list?_map fun text _ => string?_ofString text

end Value

end CodeIndex.Json
