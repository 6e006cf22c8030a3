import Mathlib.Data.List.DropRight
import CodeIndex.Proofs.Files.StoredPaths
import CodeIndex.Proofs.Files.Walk

/-!
# What a synchronisation covers

The index keeps a file under the path that is left of it below the root, and a synchronisation of a
directory is about the stored paths below what is left of the directory.  The prefix is removed by
steps and the scope compared by text, so the two agree because a path below a directory is the
directory's text and, at a slash, a text behind it.  They part when the root lies below the
directory: then nothing is left of the files but their names below the root, while the directory
keeps its own name.

## Main definitions

* `RootBelow` says that the root lies on the way from a directory down to a file.

## Main results

* `isCovered_stored_append`: a scope covers every text that goes on behind it at a slash.
* `sync_covers_iff`: when a synchronisation of a directory covers a file that is indexed from it.
-/

namespace CodeIndex.Files

open CodeIndex.Path (components descend relative IsName Abuts)
open Text (replaceChar)

variable {a b root d name : List Char} {names : List (List Char)} {k : Nat}

/-! ### Scopes -/

theorem isCovered_singleton_iff (scope path : String) :
    isCovered [scope] path ↔
      let directory := scope.toList.rdropWhile Path.isSlash
      directory = [] ∨ directory = ['.'] ∨ path.toList = directory ∨
        directory ++ ['/'] <+: path.toList := by
  simp [isCovered, List.rdropWhile, or_assoc]

/-- A text that goes on at a slash goes on at one behind its part without the slashes at its end. -/
theorem rdropWhile_slash_cases (h : Abuts a b) :
    a.rdropWhile Path.isSlash = [] ∨ a ++ b = a.rdropWhile Path.isSlash ∨
      a.rdropWhile Path.isSlash ++ ['/'] <+: a ++ b := by
  induction a using List.reverseRecOn generalizing b with
  | nil => exact .inl rfl
  | append_singleton a c ih =>
    by_cases hc : c = '/'
    · subst hc
      rw [List.rdropWhile_concat_pos _ _ _ rfl]
      refine (ih (b := ['/']) (.inr (.inr (.inr rfl)))).imp_right fun hrest => .inr ?_
      obtain heq | hfront := hrest
      · have hle := (List.rdropWhile_prefix Path.isSlash (l := a)).length_le
        rw [← heq, List.length_append] at hle
        exact absurd hle (by simp)
      · exact hfront.trans (List.prefix_append _ _)
    · rw [List.rdropWhile_concat_neg _ _ _ (by simpa [Path.isSlash] using hc)]
      obtain h | rfl | h | h := h
      · exact .inl h
      · exact .inr (.inl (List.append_nil _))
      · rw [List.getLast?_concat] at h
        exact absurd (Option.some.inj h) hc
      · obtain ⟨rest, rfl⟩ := List.head?_eq_some_iff.1 h
        exact .inr (.inr ⟨rest, by simp⟩)

/-- A scope covers every text that goes on behind it at a slash. -/
theorem isCovered_stored_append (h : Abuts a b) : isCovered [stored a] (stored (a ++ b)) := by
  have hmap : Abuts (replaceChar '\\' '/' a) (replaceChar '\\' '/' b) := h.map rfl
  have hreplace : replaceChar '\\' '/' (a ++ b) =
      replaceChar '\\' '/' a ++ replaceChar '\\' '/' b := List.map_append
  rw [isCovered_singleton_iff, stored, stored, String.toList_ofList, String.toList_ofList, hreplace]
  obtain hnil | hdot | happend :=
    dropDotSlashes_append (replaceChar '\\' '/' a) (replaceChar '\\' '/' b)
  · exact .inl (by rw [hnil]; rfl)
  · exact .inr (.inl (by rw [hdot]; rfl))
  · rw [happend]
    exact (rdropWhile_slash_cases (hmap.of_suffix (dropDotSlashes_suffix _))).imp_right .inr

/-! ### Files below a directory -/

/-- A prefix of two lists ends in the first one or within the second. -/
theorem prefix_or_eq_append_take {α : Type*} {l l₁ l₂ : List α} (h : l <+: l₁ ++ l₂) :
    l <+: l₁ ∨ ∃ k, 0 < k ∧ k ≤ l₂.length ∧ l = l₁ ++ l₂.take k := by
  obtain hle | hlt := le_or_gt l.length l₁.length
  · exact .inl ((List.isPrefix_append_of_length hle).1 h)
  · have htake : l = l₁ ++ l₂.take (l.length - l₁.length) := by
      conv_lhs => rw [List.prefix_iff_eq_take.1 h]
      rw [List.take_append, List.take_of_length_le hlt.le]
    have hlength := h.length_le
    rw [List.length_append] at hlength
    exact .inr ⟨_, Nat.sub_pos_of_lt hlt, by omega, htake⟩

/-- The root lies below a directory: it is reached by some first names of those that lead on from
there. -/
structure RootBelow (root d : List Char) (names : List (List Char)) (k : Nat) : Prop where
  pos : 0 < k
  le_length : k ≤ names.length
  components_eq : components root = components d ++ (names.take k).map .name

/-- Unless the root lies below the directory, on the way to the file, the file is covered. -/
theorem isCovered_descend (h : ∀ name ∈ names, IsName name)
    (hroot : ∀ k, ¬RootBelow root d names k) :
    isCovered [indexedPath root d] (indexedPath root (descend d names)) := by
  obtain ⟨t, ht, heq, habuts, hplain⟩ := Path.exists_descend_eq h d
  have hcomponents := Path.components_descend h d
  -- the root is cut off from both paths or from neither
  by_cases hd : components root <+: components d
  · have hfile : components root <+: components (descend d names) := by
      rw [hcomponents]
      exact hd.trans (List.prefix_append _ _)
    have htrim : Path.trimBack t = t := by
      obtain rfl | rfl := ht
      · exact Path.trimBack_relative h
      · exact Path.trimBack_slashed h
    obtain ⟨back, hback, hmeet⟩ := Path.exists_textAfter_append habuts hplain htrim hd.length_le
    rw [indexedPath_of_below hd, indexedPath_of_below hfile, heq, hback]
    exact isCovered_stored_append hmeet
  · have hfile : ¬components root <+: components (descend d names) := by
      rw [hcomponents]
      intro hfile
      obtain hfront | ⟨k, hpos, hle, hbelow⟩ := prefix_or_eq_append_take hfile
      · exact hd hfront
      · rw [List.length_map] at hle
        rw [← List.map_take] at hbelow
        exact hroot k ⟨hpos, hle, hbelow⟩
    rw [indexedPath_of_not_below hd, indexedPath_of_not_below hfile, heq]
    exact isCovered_stored_append habuts

/-- If the root lies below the directory, the directory keeps its own name and the file is kept
under its names below the root. -/
theorem RootBelow.indexedPath_eq (h : ∀ name ∈ names, IsName name)
    (hroot : RootBelow root d names k) : indexedPath root d = stored d ∧
      indexedPath root (descend d names) = stored (relative (names.drop k)) := by
  have hpos := hroot.pos
  have hlength : (components root).length = (components d).length + k := by
    rw [hroot.components_eq, List.length_append, List.length_map, List.length_take,
      min_eq_left hroot.le_length]
  constructor
  · refine indexedPath_of_not_below fun hbelow => ?_
    have := hbelow.length_le
    omega
  · have hbelow : components root <+: components (descend d names) := by
      rw [Path.components_descend h, hroot.components_eq, List.map_take]
      exact (List.prefix_append_right_inj _).2 (List.take_prefix _ _)
    rw [indexedPath_of_below hbelow, hlength, Path.textAfter_descend h d hpos]

/-! ### The scope of a directory -/

/-- A synchronisation of a directory covers what was indexed from it, but for one case: where the
root lies below the directory, a file below the root is covered only if its names below the root
happen to lie in the scope, which then is the directory itself.  What is indexed from a directory
are files that are reached from it by names. -/
theorem sync_covers_iff (root d : List Char) :
    (∀ names, (∀ name ∈ names, IsName name) →
      (isCovered [indexedPath root d] (indexedPath root (descend d names)) ↔
        ∀ k, RootBelow root d names k →
          isCovered [stored d] (stored (relative (names.drop k))))) ∧
    ∀ (tree : FileTree) (here : List String) (entries : List (String × FileNode))
      (found : List (List Char)), WellNamed tree.root →
      tree.locate d = .ok (here, .directory entries) → expand tree d = .ok found →
      ∀ file ∈ found, Reached d file := by
  refine ⟨fun names h => ⟨fun hcovered k hroot => ?_, fun hbelow => ?_⟩,
    fun tree here entries found htree hd hfound file => reached_of_mem_expand htree hd hfound⟩
  · obtain ⟨hdirectory, hfile⟩ := hroot.indexedPath_eq h
    rwa [hdirectory, hfile] at hcovered
  · by_cases hroot : ∃ k, RootBelow root d names k
    · obtain ⟨k, hroot⟩ := hroot
      obtain ⟨hdirectory, hfile⟩ := hroot.indexedPath_eq h
      rw [hdirectory, hfile]
      exact hbelow k hroot
    · exact isCovered_descend h (not_exists.1 hroot)

/-- A tree with the file `a/b/c.rs`. -/
def nested : FileTree where
  root := .directory [("a", .directory [("b", .directory [("c.rs", .file [])])])]

/-- With the root `a/b`, indexing `a` keeps `a/b/c.rs` as `c.rs`, which is not in the scope `a`. -/
theorem sync_covers_iff_root_below :
    WellNamed nested.root ∧ expand nested "a".toList = .ok ["a/b/c.rs".toList] ∧
      Reached "a".toList "a/b/c.rs".toList ∧
      ¬isCovered [indexedPath "a/b".toList "a".toList]
        (indexedPath "a/b".toList "a/b/c.rs".toList) := by
  have hnames : ∀ name ∈ ["b".toList, "c.rs".toList], IsName name := by decide
  have htree : WellNamed nested.root :=
    ⟨by decide, ⟨by decide, ⟨by decide, trivial, trivial⟩, trivial⟩, trivial⟩
  have hd : nested.locate "a".toList =
      .ok (["a"], .directory [("b", .directory [("c.rs", .file [])])]) := rfl
  have hfound : expand nested "a".toList = .ok ["a/b/c.rs".toList] := by rfl
  obtain ⟨hcovers, hreached⟩ := sync_covers_iff "a/b".toList "a".toList
  refine ⟨htree, hfound, hreached nested _ _ _ htree hd hfound _ List.mem_cons_self, ?_⟩
  intro hcovered
  have hrest := (hcovers ["b".toList, "c.rs".toList] hnames).1 hcovered 1
    ⟨by decide, by decide, by decide⟩
  exact absurd hrest (by decide)

end CodeIndex.Files
