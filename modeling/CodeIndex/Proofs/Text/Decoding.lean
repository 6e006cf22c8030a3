import CodeIndex.Files.Ignore
import CodeIndex.Proofs.Text.LineList
import CodeIndex.Proofs.Text.Pieces

/-!
# Decoding line by line

A line end is an octet of its own in UTF-8: it opens no sequence, continues none, and no sequence
stands for it.  So the decoder is at a character boundary behind each line end, whatever malformed
octets come before it, and reads what follows as if it were the start of an input.

## Main definitions

* `Decoder.Follows` says that one decoder goes on like another one that has read less.
* `Decoder.Sound` is what is known of an open sequence between two octets.

## Main results

* `decode_append_newline`: what stands before a line end and what stands behind it are decoded
  apart.
* `lines_decode`: the lines of the text are the lines of the input, each decoded alone.
* `malformed_decode`: an input is malformed if one of its lines is.
-/

namespace CodeIndex.Text

/-! ### Lines of octets -/

open IgnoreRule (octetLines)

variable {body rest octets : List UInt8}

theorem octetLines_cons (b : UInt8) (rest : List UInt8) : octetLines (b :: rest) =
    match octetLines rest with
    | [] => [[b]]
    | line :: ls => if b = 0x0A then [b] :: line :: ls else (b :: line) :: ls := rfl

theorem octetLines_cons_of_ne {b : UInt8} {line : List UInt8} {ls : List (List UInt8)}
    (hb : b ≠ 0x0A) (h : octetLines rest = line :: ls) :
    octetLines (b :: rest) = (b :: line) :: ls := by
  rw [octetLines_cons, h]
  exact if_neg hb

theorem octetLines_append_newline (h : 0x0A ∉ body) (rest : List UInt8) :
    octetLines (body ++ 0x0A :: rest) = (body ++ [0x0A]) :: octetLines rest := by
  induction body with
  | nil =>
    rw [List.nil_append, octetLines_cons]
    cases octetLines rest <;> rfl
  | cons b body ih =>
    rw [List.mem_cons, not_or] at h
    exact octetLines_cons_of_ne (Ne.symm h.1) (ih h.2)

theorem octetLines_of_notMem (hne : body ≠ []) (h : 0x0A ∉ body) : octetLines body = [body] := by
  induction body with
  | nil => exact absurd rfl hne
  | cons b body ih =>
    rw [List.mem_cons, not_or] at h
    obtain rfl | hbody := eq_or_ne body []
    · rfl
    · exact octetLines_cons_of_ne (Ne.symm h.1) (ih hbody h.2)

/-- Octets are a last line without its end, or a line with its end and further octets. -/
theorem octets_induction {motive : List UInt8 → Prop} (nil : motive [])
    (last : ∀ body, body ≠ [] → 0x0A ∉ body → motive body)
    (line : ∀ body rest, 0x0A ∉ body → motive rest → motive (body ++ 0x0A :: rest))
    (octets : List UInt8) : motive octets := by
  induction octets using pieces_induction (0x0A : UInt8) with
  | last body hbody =>
    obtain rfl | hne := eq_or_ne body []
    · exact nil
    · exact last body hne hbody
  | next body rest hbody ih => exact line body rest hbody ih

namespace Utf8

/-! ### Two decoders side by side -/

namespace Decoder

/-- The second decoder stands where the first one does, and had read `front` (last first) before the
first one started; `bad` tells whether a part of that was malformed.  What is left over of a closed
sequence does not matter. -/
structure Follows (front : List Char) (bad : Bool) (d e : Decoder) : Prop where
  read : e.read = d.read ++ front
  malformed : e.malformed = (d.malformed || bad)
  missing : e.missing = d.missing
  sequence : d.missing ≠ 0 → e.code = d.code ∧ e.low = d.low ∧ e.high = d.high

variable {d e : Decoder} {front : List Char} {bad : Bool} {c : Char} {b : UInt8}

theorem Follows.replace (h : Follows front bad d e) : Follows front bad d.replace e.replace where
  read := by simp [Decoder.replace, h.read]
  malformed := by simp [Decoder.replace]
  missing := rfl
  sequence hopen := absurd rfl hopen

theorem Follows.open (h : Follows front bad d e) (missing code : Nat) (low high : UInt8) :
    Follows front bad (d.open missing code low high) (e.open missing code low high) where
  read := h.read
  malformed := h.malformed
  missing := rfl
  sequence _ := ⟨rfl, rfl, rfl⟩

/-- Both read a character. -/
theorem Follows.push (h : Follows front bad d e) (c : Char) (code code' : Nat)
    (low low' high high' : UInt8) :
    Follows front bad ⟨c :: d.read, d.malformed, 0, code, low, high⟩
      ⟨c :: e.read, e.malformed, 0, code', low', high'⟩ where
  read := by simp [h.read]
  malformed := h.malformed
  missing := rfl
  sequence hopen := absurd rfl hopen

theorem Follows.start (h : Follows front bad d e) (b : UInt8) :
    Follows front bad (d.start b) (e.start b) := by
  unfold Decoder.start
  split_ifs
  · exact h.push ..
  · exact h.replace
  all_goals first | exact h.open .. | exact h.replace

theorem Follows.step (h : Follows front bad d e) (b : UInt8) :
    Follows front bad (d.step b) (e.step b) := by
  unfold Decoder.step
  rw [h.missing]
  cases hmissing : d.missing with
  | zero => exact h.start b
  | succ missing =>
    obtain ⟨hcode, hlow, hhigh⟩ := h.sequence (by simp [hmissing])
    dsimp only
    rw [hcode, hlow, hhigh]
    split
    · cases missing with
      | zero => exact h.push ..
      | succ rest => exact h.open ..
    · exact h.replace.start b

theorem Follows.foldl (h : Follows front bad d e) (octets : List UInt8) :
    Follows front bad (octets.foldl Decoder.step d) (octets.foldl Decoder.step e) := by
  induction octets generalizing d e with
  | nil => exact h
  | cons b octets ih => exact ih (h.step b)

theorem Follows.finish (h : Follows front bad d e) : Follows front bad d.finish e.finish := by
  unfold Decoder.finish
  rw [h.missing]
  split
  · exact h
  · exact h.replace

/-! ### Line ends -/

/-- The next octet of an open sequence is none of ASCII, and neither is the character that the
sequence stands for: its code has at least two digits in base 64, the first of them not `1`. -/
structure Sound (d : Decoder) : Prop where
  low : d.missing ≠ 0 → 0x80 ≤ d.low.toNat
  code : d.missing ≠ 0 → 2 ≤ d.code ∨ 2 ≤ d.missing ∧ 2 ≤ d.code * 64 + (d.low.toNat - 0x80)

theorem sound_of_missing (h : d.missing = 0) : Sound d := ⟨absurd h, absurd h⟩

theorem sound_open {missing code : Nat} {low high : UInt8} (hlow : 0x80 ≤ low.toNat)
    (hcode : 2 ≤ code ∨ 2 ≤ missing ∧ 2 ≤ code * 64 + (low.toNat - 0x80)) :
    Sound (d.open missing code low high) := ⟨fun _ => hlow, fun _ => hcode⟩

/-- What the first octet of a sequence can do: it is a character, it fits nowhere, or it opens a
sequence of several octets. -/
inductive Starts (d : Decoder) (b : UInt8) : Decoder → Prop
  | character : Starts d b { d with read := Char.ofNat b.toNat :: d.read, missing := 0 }
  | misplaced : b ≠ 0x0A → Starts d b d.replace
  | opening {missing code : Nat} {low high : UInt8} : b ≠ 0x0A → missing ≠ 0 →
      Sound (d.open missing code low high) → Starts d b (d.open missing code low high)

theorem starts_start (d : Decoder) (b : UInt8) : Starts d b (d.start b) := by
  have hnewline : ¬ b < 0x80 → b ≠ 0x0A := by
    rintro hascii rfl
    exact hascii (by decide)
  have hfirst : ∀ n : UInt8, b ≠ n → b.toNat ≠ n.toNat :=
    fun n hne heq => hne (UInt8.toNat_inj.1 heq)
  unfold Decoder.start
  split
  · exact .character
  next hascii =>
  replace hnewline := hnewline hascii
  split
  · exact .misplaced hnewline
  next htail =>
  simp only [UInt8.lt_iff_toNat_lt, UInt8.reduceToNat, not_lt] at htail
  split
  · exact .opening hnewline (by decide) (sound_open (by decide) (.inl (by omega)))
  next htwo =>
  simp only [UInt8.lt_iff_toNat_lt, UInt8.reduceToNat, not_lt] at htwo
  split
  · refine .opening hnewline (by decide) ?_
    by_cases hzero : b = 0xE0
    · rw [hzero]
      exact sound_open (by decide) (.inr (by decide))
    · have hne := hfirst 0xE0 hzero
      rw [beq_false_of_ne hzero]
      exact sound_open (by decide) (.inr ⟨le_rfl, by simp at hne ⊢; omega⟩)
  next hthree =>
  simp only [UInt8.lt_iff_toNat_lt, UInt8.reduceToNat, not_lt] at hthree
  split
  · refine .opening hnewline (by decide) ?_
    by_cases hzero : b = 0xF0
    · rw [hzero]
      exact sound_open (by decide) (.inr (by decide))
    · have hne := hfirst 0xF0 hzero
      rw [beq_false_of_ne hzero]
      exact sound_open (by decide) (.inr ⟨by decide, by simp at hne ⊢; omega⟩)
  · exact .misplaced hnewline

/-- What any octet can do. -/
inductive Steps (d : Decoder) (b : UInt8) : Decoder → Prop
  | started {e : Decoder} : d.missing = 0 → Starts d b e → Steps d b e
  /-- The octet ends an open sequence that is malformed. -/
  | broken {e : Decoder} : d.missing ≠ 0 → Starts d.replace b e → Steps d b e
  | closed {code : Nat} : b ≠ 0x0A → 0x80 ≤ code →
      Steps d b { d with read := Char.ofNat code :: d.read, missing := 0 }
  | continued {missing code : Nat} {low high : UInt8} : b ≠ 0x0A → missing ≠ 0 →
      Sound (d.open missing code low high) → Steps d b (d.open missing code low high)

theorem Sound.steps (h : Sound d) (b : UInt8) : Steps d b (d.step b) := by
  unfold Decoder.step
  cases hmissing : d.missing with
  | zero => exact .started hmissing (starts_start d b)
  | succ missing =>
    have hopen : d.missing ≠ 0 := by simp [hmissing]
    have hlow := h.low hopen
    have hcode := h.code hopen
    dsimp only
    split
    · next hwithin =>
      simp only [Bool.and_eq_true, decide_eq_true_eq, UInt8.le_iff_toNat_le] at hwithin
      have hnewline : b ≠ 0x0A := by
        rintro rfl
        simp at hwithin
        omega
      cases missing with
      | zero => exact .closed hnewline (by omega)
      | succ rest =>
        exact .continued hnewline (Nat.succ_ne_zero _) (sound_open (by decide) (.inl (by omega)))
    · exact .broken hopen (starts_start d.replace b)

theorem Starts.sound {b : UInt8} (h : Starts d b e) : Sound e := by
  cases h with
  | character | misplaced _ => exact sound_of_missing rfl
  | opening _ _ hsound => exact hsound

theorem Sound.step (h : Sound d) (b : UInt8) : Sound (d.step b) := by
  generalize hnext : d.step b = e
  have hsteps := hnext ▸ h.steps b
  cases hsteps with
  | started _ hstarts | broken _ hstarts => exact hstarts.sound
  | closed _ _ => exact sound_of_missing rfl
  | continued _ _ hsound => exact hsound

theorem Sound.foldl (h : Sound d) (octets : List UInt8) : Sound (octets.foldl Decoder.step d) := by
  induction octets generalizing d with
  | nil => exact h
  | cons b octets ih => exact ih (h.step b)

theorem ofNat_ne_newline {n : Nat} (h : n ≠ 10) : Char.ofNat n ≠ '\n' := by
  intro heq
  by_cases hvalid : n.isValidChar
  · have hchar : Char.ofNat n = Char.ofNatAux n hvalid := dif_pos hvalid
    rw [hchar] at heq
    exact h (congrArg Char.toNat heq)
  · have hchar : Char.ofNat n = '\x00' := dif_neg hvalid
    rw [hchar] at heq
    exact absurd heq (by decide)

/-- No other octet than a line end becomes one. -/
theorem Starts.newline_notMem (h : Starts d b e) (hb : b ≠ 0x0A) (hread : '\n' ∉ d.read) :
    '\n' ∉ e.read := by
  have hcode : b.toNat ≠ 10 := fun heq => hb (UInt8.toNat_inj.1 heq)
  cases h with
  | character => simpa using ⟨(ofNat_ne_newline hcode).symm, hread⟩
  | misplaced _ => simpa [Decoder.replace, replacement] using hread
  | opening _ _ _ => exact hread

theorem Sound.newline_notMem_step (h : Sound d) (hb : b ≠ 0x0A) (hread : '\n' ∉ d.read) :
    '\n' ∉ (d.step b).read := by
  generalize hnext : d.step b = e
  have hsteps := hnext ▸ h.steps b
  cases hsteps with
  | started _ hstarts => exact hstarts.newline_notMem hb hread
  | broken _ hstarts =>
    exact hstarts.newline_notMem hb (by simpa [Decoder.replace, replacement] using hread)
  | closed _ hcode =>
    simpa using ⟨(ofNat_ne_newline (by omega)).symm, hread⟩
  | continued _ _ _ => exact hread

/-- A line end closes whatever is open and is read as a line end. -/
theorem Sound.step_newline (h : Sound d) : (d.step 0x0A).missing = 0 ∧
    (d.step 0x0A).read = '\n' :: d.finish.read ∧
    (d.step 0x0A).malformed = d.finish.malformed := by
  have hstart : ∀ d : Decoder, d.start 0x0A = { d with read := '\n' :: d.read, missing := 0 } :=
    fun d => if_pos (by decide)
  unfold Decoder.step Decoder.finish
  cases hmissing : d.missing with
  | zero => simp [hstart]
  | succ missing =>
    have hlow := h.low (by simp [hmissing])
    have hbelow : ¬ d.low ≤ 0x0A := by
      simp only [UInt8.le_iff_toNat_le, UInt8.reduceToNat]
      omega
    simp [hbelow, hstart]

theorem finish_of_open (h : d.missing ≠ 0) : d.finish = d.replace := if_neg h

theorem Starts.finish_ne_nil (h : Starts d b e) : e.finish.read ≠ [] := by
  cases h with
  | character => exact List.cons_ne_nil _ _
  | misplaced _ => exact List.cons_ne_nil _ _
  | opening _ hmissing _ =>
    rw [finish_of_open hmissing]
    exact List.cons_ne_nil _ _

/-- Behind an octet there is some text. -/
theorem Sound.finish_step_ne_nil (h : Sound d) (b : UInt8) : (d.step b).finish.read ≠ [] := by
  generalize hnext : d.step b = e
  have hsteps := hnext ▸ h.steps b
  cases hsteps with
  | started _ hstarts | broken _ hstarts => exact hstarts.finish_ne_nil
  | closed _ _ => exact List.cons_ne_nil _ _
  | continued _ hmissing _ =>
    rw [finish_of_open hmissing]
    exact List.cons_ne_nil _ _

end Decoder

/-! ### Inputs with line ends -/

theorem sound_foldl (octets : List UInt8) :
    (octets.foldl Decoder.step {} : Decoder).Sound :=
  (Decoder.sound_of_missing rfl).foldl octets

/-- What stands before a line end and what stands behind it are decoded apart. -/
theorem decode_append_newline (body rest : List UInt8) :
    decode (body ++ 0x0A :: rest) = ⟨(decode body).text ++ '\n' :: (decode rest).text,
      (decode body).malformed || (decode rest).malformed⟩ := by
  obtain ⟨hmissing, hread, hmalformed⟩ := (sound_foldl body).step_newline
  -- The decoder behind the line end goes on like a new one.
  have hfollows : Decoder.Follows (Decoder.step (body.foldl Decoder.step {}) 0x0A).read
      (Decoder.step (body.foldl Decoder.step {}) 0x0A).malformed {}
      (Decoder.step (body.foldl Decoder.step {}) 0x0A) :=
    ⟨rfl, rfl, hmissing, absurd rfl⟩
  have hrest := (hfollows.foldl rest).finish
  simp only [decode, List.foldl_append, List.foldl_cons, hrest.read, hrest.malformed, hread,
    hmalformed, List.reverse_append, List.reverse_cons, List.append_assoc, List.singleton_append,
    Bool.or_comm]

theorem newline_notMem_decode (h : 0x0A ∉ body) : '\n' ∉ (decode body).text := by
  have hread : '\n' ∉ (body.foldl Decoder.step {} : Decoder).read := by
    induction body using List.reverseRecOn with
    | nil => simp
    | append_singleton body b ih =>
      rw [List.mem_append, List.mem_singleton, not_or] at h
      rw [List.foldl_concat]
      exact (sound_foldl body).newline_notMem_step (Ne.symm h.2) (ih h.1)
  unfold decode Decoder.finish
  split
  · simpa using hread
  · simpa [Decoder.replace, replacement] using hread

theorem decode_ne_nil (h : body ≠ []) : (decode body).text ≠ [] := by
  obtain ⟨front, b, rfl⟩ := (List.eq_nil_or_concat' body).resolve_left h
  simpa [decode] using (sound_foldl front).finish_step_ne_nil b

/-- The lines of the text are the lines of the input, each decoded alone. -/
theorem lines_decode (octets : List UInt8) :
    lines (decode octets).text = (octetLines octets).map fun line => (decode line).text := by
  induction octets using octets_induction with
  | nil => rfl
  | last body hne hbody =>
    rw [octetLines_of_notMem hne hbody, List.map_singleton]
    exact lines_of_notMem (decode_ne_nil hne)
      fun hmem => newline_notMem_decode hbody (List.dropLast_subset _ hmem)
  | line body rest hbody ih =>
    rw [octetLines_append_newline hbody, decode_append_newline, List.map_cons,
      decode_append_newline body [], lines_append_newline (newline_notMem_decode hbody), ih]
    rfl

/-- An input is malformed if one of its lines is. -/
theorem malformed_decode (octets : List UInt8) :
    (decode octets).malformed = (octetLines octets).any fun line => (decode line).malformed := by
  induction octets using octets_induction with
  | nil => rfl
  | last body hne hbody => rw [octetLines_of_notMem hne hbody, List.any_cons, List.any_nil,
      Bool.or_false]
  | line body rest hbody ih =>
    rw [octetLines_append_newline hbody, decode_append_newline, List.any_cons,
      decode_append_newline body [], ih]
    simp [decode, Decoder.finish]

end Utf8

/-! ### Replacing characters -/

theorem lines_map {f : Char → Char} (hf : ∀ c, f c = '\n' ↔ c = '\n') (text : List Char) :
    lines (text.map f) = (lines text).map (List.map f) := by
  induction text with
  | nil => rfl
  | cons c text ih =>
    rw [List.map_cons, lines_cons, lines_cons, ih]
    cases lines text with
    | nil => rfl
    | cons line ls => by_cases hc : c = '\n' <;> simp [consLine, hf, hc]

/-- Replacing a character that is no line end by another such character replaces it line by
line. -/
theorem lines_replaceChar {old new : Char} (hold : old ≠ '\n') (hnew : new ≠ '\n')
    (text : List Char) :
    lines (replaceChar old new text) = (lines text).map (replaceChar old new) := by
  refine lines_map (fun c => ?_) text
  split
  · next heq => simp [hnew, beq_iff_eq.1 heq, hold]
  · rfl

end CodeIndex.Text
