import CodeIndex.Proofs.Symbol.Distinct
import CodeIndex.Symbol.Extract

/-!
# The symbols of a text

Names are collected match by match and pattern by pattern, each is compared with those that were
collected before, and the search is left in the middle of a pattern once there are enough of them.
What it collects can be said without the search: of all names that the patterns capture, in their
order, those that may be reported, each once, up to the limit.

The search stops only when the list is full, and then nothing that is still to come would be added;
this is the one place where the limit and the order of the matches meet.

## Main results

* `collect_firstDistinct`: what the matches of one pattern add to the names met before.
* `collectAll_firstDistinct`: what a list of patterns adds.
* `extract_capped_union`: the symbols of a text.
-/

namespace CodeIndex.Symbol

variable {cap : Nat} {seen names : List String} {text : List Char}

/-- The matches of a pattern are searched as if the names met before were in front of them. -/
theorem collect_firstDistinct (hroom : (firstDistinct cap seen).length < cap) :
    collect cap (firstDistinct cap seen) names =
      firstDistinct cap (seen ++ names.filter isSymbol) := by
  generalize hfound : firstDistinct cap seen = found at hroom
  fun_induction collect cap found names generalizing seen with
  | case1 found => rw [List.filter_nil, List.append_nil, hfound]
  | case2 found name rest hnew hfull =>
    -- The last place is taken, so the search may leave out the rest.
    subst hfound
    obtain ⟨hsymbol, hnotMem⟩ := Bool.and_eq_true_iff.1 hnew
    have hadded := firstDistinct_concat_new hroom (by simpa using hnotMem)
    have hcap : cap ≤ (firstDistinct cap (seen ++ [name])).length := by
      rwa [hadded, List.length_append, List.length_singleton]
    rw [List.filter_cons_of_pos hsymbol, List.append_cons seen, firstDistinct_append_of_full hcap,
      hadded]
  | case3 found name rest hnew hmore ih =>
    subst hfound
    obtain ⟨hsymbol, hnotMem⟩ := Bool.and_eq_true_iff.1 hnew
    have hadded := firstDistinct_concat_new hroom (by simpa using hnotMem)
    have hroom' : (firstDistinct cap seen ++ [name]).length < cap := by
      rw [List.length_append, List.length_singleton]
      exact Nat.lt_of_not_le hmore
    rw [ih hadded hroom', List.filter_cons_of_pos hsymbol, ← List.append_cons]
  | case4 found name rest hold ih =>
    subst hfound
    by_cases hsymbol : isSymbol name
    · have hmem : name ∈ firstDistinct cap seen := by simpa [hsymbol] using hold
      rw [ih (firstDistinct_concat_old hmem) hroom, List.filter_cons_of_pos hsymbol,
        ← List.append_cons]
    · rw [ih rfl hroom, List.filter_cons_of_neg hsymbol]

/-- The patterns are searched one after the other as if their matches stood in one list. -/
theorem collectAll_firstDistinct (patterns : List Declaration)
    (hroom : (firstDistinct cap seen).length < cap) :
    collectAll cap text (firstDistinct cap seen) patterns =
      firstDistinct cap
        (seen ++ (patterns.flatMap fun pattern => captures pattern text).filter isSymbol) := by
  induction patterns generalizing seen with
  | nil => rw [collectAll, List.flatMap_nil, List.filter_nil, List.append_nil]
  | cons pattern rest ih =>
    rw [collectAll, collect_firstDistinct hroom, List.flatMap_cons, List.filter_append,
      ← List.append_assoc]
    split
    · next hfull => exact (firstDistinct_append_of_full hfull).symm
    · next hmore => exact ih (Nat.lt_of_not_le hmore)

theorem isSymbol_iff (name : String) :
    isSymbol name = true ↔
      2 ≤ name.utf8ByteSize ∧ String.ofList (name.toList.map Char.toLower) ∉ keywords := by
  simp [isSymbol]

/-- The symbols of a text are the first hundred different names among those that the patterns of its
language capture, pattern by pattern and from left to right, leaving out names of less than two
bytes and names that are keywords in lower case. -/
theorem extract_capped_union (text : List Char) (language : Language) :
    extract text language =
      ((((declarations language).flatMap fun pattern => captures pattern text).filter fun name =>
        2 ≤ name.utf8ByteSize ∧ String.ofList (name.toList.map Char.toLower) ∉ keywords).eraseDups
        |>.take 100) ∧
    (extract text language).length ≤ 100 := by
  have hfilter : (fun name : String => decide (2 ≤ name.utf8ByteSize ∧
      String.ofList (name.toList.map Char.toLower) ∉ keywords)) = isSymbol :=
    funext fun name => Bool.eq_iff_iff.2 (decide_eq_true_iff.trans (isSymbol_iff name).symm)
  have hroom : (firstDistinct maxSymbols []).length < maxSymbols := by decide
  have hextract : extract text language = firstDistinct maxSymbols
      (((declarations language).flatMap fun pattern => captures pattern text).filter isSymbol) :=
    collectAll_firstDistinct (declarations language) hroom
  rw [hextract, hfilter]
  exact ⟨rfl, List.length_take_le _ _⟩

end CodeIndex.Symbol
