import CodeIndex.Files.Sources
import CodeIndex.Proofs.Path.TextAfter

/-!
# Stored paths

The index keeps a file under what is left of its path below the root, or under the whole path if the
file is elsewhere, with slashes for backslashes and without the single dots at the front.  The steps
of the path can be read off what is kept, if it is known which of the two it is and whether there
was a dot at the front.

## Main definitions

* `stored` is how the index writes what is left of a path.

## Main results

* `components_eq_of_dropDotSlashes_eq`: texts that differ in dots at the front have the same steps,
  if both start with one or neither does.
-/

namespace CodeIndex.Files

open CodeIndex.Path (components bodyComponents splitStart)
open Text (replaceChar)

variable {a b root path text : List Char}

/-- How the index writes what is left of a path. -/
def stored (rest : List Char) : String :=
  String.ofList (dropDotSlashes (replaceChar '\\' '/' rest))

theorem indexedPath_of_below (h : components root <+: components path) :
    indexedPath root path = stored (Path.textAfter path (components root).length) := by
  rw [indexedPath, Path.stripPrefix?, if_pos (List.isPrefixOf_iff_prefix.2 h)]
  rfl

theorem indexedPath_of_not_below (h : ¬components root <+: components path) :
    indexedPath root path = stored path := by
  rw [indexedPath, Path.stripPrefix?, if_neg (mt List.isPrefixOf_iff_prefix.1 h)]
  rfl

theorem dropDotSlashes_suffix (text : List Char) : dropDotSlashes text <:+ text := by
  induction text using dropDotSlashes.induct with
  | case1 rest ih => exact ih.trans ((List.suffix_cons _ _).trans (List.suffix_cons _ _))
  | case2 text h => rw [dropDotSlashes]; exact h

theorem dropDotSlashes_eq_self (h : ∀ rest, text ≠ '.' :: '/' :: rest) :
    dropDotSlashes text = text := by
  rw [dropDotSlashes]
  exact h

/-- What stands behind a text is left alone, unless nothing or a single dot is left of the text. -/
theorem dropDotSlashes_append (a b : List Char) :
    dropDotSlashes a = [] ∨ dropDotSlashes a = ['.'] ∨
      dropDotSlashes (a ++ b) = dropDotSlashes a ++ b := by
  induction a using dropDotSlashes.induct with
  | case1 rest ih => exact ih
  | case2 text h =>
    rw [dropDotSlashes_eq_self h]
    match text with
    | [] => exact .inl rfl
    | [c] =>
      by_cases hc : c = '.'
      · exact .inr (.inl (by rw [hc]))
      · exact .inr (.inr (dropDotSlashes_eq_self fun rest heq => hc (List.cons.inj heq).1))
    | c :: e :: rest =>
      refine .inr (.inr (dropDotSlashes_eq_self fun back heq => h rest ?_))
      obtain ⟨rfl, hslash⟩ := List.cons.inj heq
      rw [(List.cons.inj hslash).1]

/-- A single dot is no step of the text that it stands in. -/
theorem bodyComponents_dropDotSlashes (text : List Char) :
    bodyComponents (dropDotSlashes text) = bodyComponents text := by
  induction text using dropDotSlashes.induct with
  | case1 rest ih => exact ih.trans (Path.bodyComponents_slash ['.'] rest).symm
  | case2 text h => rw [dropDotSlashes_eq_self h]

/-- Texts that differ in dots at the front have the same steps, if both start with one or neither
does. -/
theorem components_eq_of_dropDotSlashes_eq
    (hstart : (splitStart a).1 = some .current ↔ (splitStart b).1 = some .current)
    (h : dropDotSlashes a = dropDotSlashes b) : components a = components b := by
  have hplain : ∀ {text}, (splitStart text).1 ≠ some .current → dropDotSlashes text = text :=
    fun hne => dropDotSlashes_eq_self fun rest heq => hne (by rw [heq]; rfl)
  by_cases hcurrent : (splitStart a).1 = some .current
  · rw [Path.components_eq, Path.components_eq, hcurrent, hstart.1 hcurrent,
      Path.bodyComponents_splitStart, Path.bodyComponents_splitStart,
      ← bodyComponents_dropDotSlashes a, h, bodyComponents_dropDotSlashes b]
  · rw [← hplain hcurrent, h, hplain (mt hstart.2 hcurrent)]

theorem replaceChar_of_notMem {old new : Char} (h : old ∉ text) :
    replaceChar old new text = text := by
  refine (List.map_congr_left fun c hc => ?_).trans (List.map_id text)
  rw [if_neg (by rw [beq_iff_eq]; exact ne_of_mem_of_not_mem hc h)]
  rfl

theorem dropDotSlashes_eq_of_stored_eq (ha : '\\' ∉ a) (hb : '\\' ∉ b)
    (h : stored a = stored b) : dropDotSlashes a = dropDotSlashes b := by
  rw [stored, stored, replaceChar_of_notMem ha, replaceChar_of_notMem hb] at h
  exact String.ofList_injective h

end CodeIndex.Files
