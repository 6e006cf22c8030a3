import Mathlib.Data.List.Pairwise
import CodeIndex.Proofs.Files.StoredPaths
import CodeIndex.Proofs.Files.Walk
import CodeIndex.Proofs.Index.Reports
import CodeIndex.Proofs.Path.Order

/-!
# What a batch holds twice

The files that some arguments stand for are told apart by the steps of their paths, and only then do
they get the paths under which the index keeps them.  Among files that are named alike the stored
path determines the steps, so that a batch holds each of them once.  Two files that are named in
different ways may get the same path, and nothing drops one of them.

All of this is about trees whose names are UTF-8 texts.  Names that are not, and differ only in
octets that cannot be read, have different steps but one text to be stored under.

## Main definitions

* `Alike` says that two files are named alike: no backslash is rewritten, both or neither are below
  the root, and both or neither start with a dot.
* `ReadSources.paths` are the stored paths of a batch; `ReadSources.AccountedBy` says that a report
  has one outcome for each.

## Main results

* `Alike.components_eq`: files that are named alike and stored under one path have the same steps.
* `nodup_paths_of_same_start`: with the default root, arguments that start alike are enough.
* `batch_distinct_iff`: when the paths of a batch, and with them those of the reports, differ.
-/

namespace CodeIndex

open Indexing

namespace Files

open CodeIndex.Path (components splitStart)

variable {root p q : List Char} {tree : FileTree} {found : List (List Char)}

/-! ### Files that are named alike -/

/-- Two files are named alike: no backslash is rewritten, both or neither are below the root, and
both or neither start with a dot. -/
structure Alike (root p q : List Char) : Prop where
  backslash_notMem : '\\' ∉ p ∧ '\\' ∉ q
  below_iff : components root <+: components p ↔ components root <+: components q
  dot_iff : (splitStart p).1 = some .current ↔ (splitStart q).1 = some .current

/-- Below the root the stored path has the steps behind those of the root. -/
theorem components_eq_of_below (hp : components root <+: components p)
    (hq : components root <+: components q) (h : Alike root p q)
    (heq : indexedPath root p = indexedPath root q) : components p = components q := by
  rw [indexedPath_of_below hp, indexedPath_of_below hq] at heq
  have hrest := dropDotSlashes_eq_of_stored_eq (fun hmem => h.backslash_notMem.1
    (Path.mem_of_mem_textAfter hmem)) (fun hmem => h.backslash_notMem.2
    (Path.mem_of_mem_textAfter hmem)) heq
  -- a root without steps leaves the start of the path, any other one takes it away
  obtain hnil | hpos := Nat.eq_zero_or_pos (components root).length
  · rw [hnil] at hrest
    rw [← Path.components_textAfter_zero p, ← Path.components_textAfter_zero q]
    refine components_eq_of_dropDotSlashes_eq ?_ hrest
    rw [Path.splitStart_textAfter_zero, Path.splitStart_textAfter_zero]
    exact h.dot_iff
  · have hdrop : (components p).drop (components root).length =
        (components q).drop (components root).length := by
      rw [← Path.bodyComponents_textAfter p hpos, ← Path.bodyComponents_textAfter q hpos,
        ← bodyComponents_dropDotSlashes, hrest, bodyComponents_dropDotSlashes]
    exact (List.prefix_append_drop hp).trans (by rw [hdrop, ← List.prefix_append_drop hq])

/-- Files that are named alike and stored under one path have the same steps. -/
theorem Alike.components_eq (h : Alike root p q) (heq : indexedPath root p = indexedPath root q) :
    components p = components q := by
  by_cases hp : components root <+: components p
  · exact components_eq_of_below hp (h.below_iff.1 hp) h heq
  · rw [indexedPath_of_not_below hp, indexedPath_of_not_below (mt h.below_iff.2 hp)] at heq
    exact components_eq_of_dropDotSlashes_eq h.dot_iff
      (dropDotSlashes_eq_of_stored_eq h.backslash_notMem.1 h.backslash_notMem.2 heq)

/-! ### Batches -/

/-- The stored paths of a batch. -/
def ReadSources.paths (loaded : ReadSources) : List String :=
  loaded.files.map (·.path) ++ loaded.unreadable.map (·.1)

/-- A batch has the stored path of each file, of those that could not be read at its end. -/
theorem perm_paths_readSources (tree : FileTree) (root : List Char) (found : List (List Char)) :
    (readSources tree root found).paths.Perm (found.map (indexedPath root)) := by
  induction found with
  | nil => exact .nil
  | cons path rest ih =>
    unfold ReadSources.paths readSources at ih ⊢
    cases hread : tree.read path with
    | ok content =>
      simp only [List.filterMap_cons, hread, List.map_cons, List.cons_append]
      exact ih.cons _
    | error e =>
      simp only [List.filterMap_cons, hread, List.map_cons]
      exact List.perm_middle.trans (ih.cons _)

/-- The paths differ if those of files with different steps do. -/
theorem nodup_paths_iff (h : found.Pairwise fun p q => components p ≠ components q) :
    (readSources tree root found).paths.Nodup ↔ ∀ p ∈ found, ∀ q ∈ found,
      components p ≠ components q → indexedPath root p ≠ indexedPath root q := by
  rw [(perm_paths_readSources tree root found).nodup_iff, List.Nodup, List.pairwise_map]
  constructor
  · intro hpaths
    -- found by instance search below
    have hsymm : Std.Symm fun p q => components p ≠ components q →
        indexedPath root p ≠ indexedPath root q := ⟨fun p q hpq hne => (hpq hne.symm).symm⟩
    have hdistinct : found.Pairwise fun p q => components p ≠ components q →
        indexedPath root p ≠ indexedPath root q := by
      refine hpaths.imp ?_
      exact fun hne _ => hne
    exact hdistinct.forall_of_forall fun p _ hne => absurd rfl hne
  · exact fun hpaths => h.imp_of_mem fun hp hq => hpaths _ hp _ hq

/-! ### Arguments that are named alike -/

theorem exists_of_mem_mapM {α β ε : Type*} {f : α → Except ε β} {as : List α} {bs : List β} {b : β}
    (h : as.mapM f = .ok bs) (hb : b ∈ bs) : ∃ a ∈ as, f a = .ok b := by
  induction as generalizing bs with
  | nil =>
    obtain rfl : [] = bs := Except.ok.inj h
    cases hb
  | cons a as ih =>
    rw [List.mapM_cons] at h
    cases hfirst : f a with
    | error e =>
      rw [hfirst] at h
      cases h
    | ok first =>
      cases hrest : as.mapM f with
      | error e =>
        rw [hfirst, hrest] at h
        cases h
      | ok rest =>
        rw [hfirst, hrest] at h
        obtain rfl : first :: rest = bs := Except.ok.inj h
        obtain rfl | hb := List.mem_cons.1 hb
        · exact ⟨a, List.mem_cons_self, hfirst⟩
        · obtain ⟨a', ha', heq⟩ := ih hrest hb
          exact ⟨a', List.mem_cons_of_mem _ ha', heq⟩

/-- A file that some arguments stand for starts as one of them does. -/
theorem exists_same_start {paths : List (List Char)} (htree : WellNamed tree.root)
    (h : sourcesAt tree paths = .ok found) (hp : p ∈ found) :
    ∃ d ∈ paths, (splitStart p).1 = (splitStart d).1 := by
  rw [sourcesAt] at h
  cases hexpand : paths.mapM (expand tree) with
  | error message =>
    rw [hexpand] at h
    cases h
  | ok lists =>
    rw [hexpand] at h
    rw [← Except.ok.inj h] at hp
    obtain ⟨files, hfiles, hp⟩ :=
      List.mem_flatten.1 (List.mem_mergeSort.1 (mem_of_mem_dropRepeats hp))
    obtain ⟨d, hd, hexpand⟩ := exists_of_mem_mapM hexpand hfiles
    refine ⟨d, hd, ?_⟩
    obtain rfl | ⟨names, -, hnames, rfl⟩ := eq_or_reached_of_mem_expand htree hexpand hp
    · rfl
    · refine Path.splitStart_descend hnames ?_
      rintro rfl
      cases hexpand

/-- With the root `.`, arguments that all start with a dot, or all do not, make a batch that holds
each document once, if no name has a backslash. -/
theorem nodup_paths_of_same_start {paths : List (List Char)} (htree : WellNamed tree.root)
    (h : sourcesAt tree paths = .ok found) (hbackslash : ∀ p ∈ found, '\\' ∉ p)
    (hstart : ∀ d ∈ paths, ∀ d' ∈ paths,
      (splitStart d).1 = some .current ↔ (splitStart d').1 = some .current) :
    (readSources tree ['.'] found).paths.Nodup := by
  refine (nodup_paths_iff (pairwise_sourcesAt h)).2 fun p hp q hq hne heq => ?_
  obtain ⟨d, hd, hpd⟩ := exists_same_start htree h hp
  obtain ⟨d', hd', hqd⟩ := exists_same_start htree h hq
  have hdots : (splitStart p).1 = some .current ↔ (splitStart q).1 = some .current := by
    rw [hpd, hqd]
    exact hstart d hd d' hd'
  have halike : Alike ['.'] p q :=
    { backslash_notMem := ⟨hbackslash p hp, hbackslash q hq⟩
      below_iff := by
        rw [Path.prefix_components_dot_iff, Path.prefix_components_dot_iff]
        exact hdots
      dot_iff := hdots }
  exact hne (halike.components_eq heq)

end Files

/-! ### Reports -/

/-- A report to which the files that could not be read are added accounts for the whole batch. -/
def Files.ReadSources.AccountedBy (loaded : Files.ReadSources) (report : IndexReport) : Prop :=
  (Cli.addUnreadable report loaded.unreadable).Accounts loaded.paths

theorem Files.ReadSources.accountedBy {loaded : Files.ReadSources} {report : IndexReport}
    (h : report.Accounts (loaded.files.map (·.path))) : loaded.AccountedBy report := by
  have haccounts :=
    h.recordFailures (loaded.unreadable.map fun failure => (failure.1, failure.2.message))
  rw [List.map_map] at haccounts
  rw [AccountedBy, Cli.addUnreadable_eq]
  exact haccounts

/-- A batch answers with a report that accounts for it. -/
theorem Indexer.answers_indexBatch {σ : Type} [RecordStore σ] (indexer : Indexer) (store : String)
    (force : Bool) (loaded : Files.ReadSources) : Answers loaded.AccountedBy
      (indexer.indexBatch store force { store } loaded.files : Indexing σ IndexReport) := by
  intro st report hanswer
  have hconcludes := concludes_indexBatch indexer store force
    (IndexReport.balanced_empty store).accounts loaded.files st
  rw [hanswer] at hconcludes
  cases hconcludes with
  | reported haccounts => exact loaded.accountedBy haccounts

namespace Files

open CodeIndex.Path (components)

/-- The paths of a batch differ unless two of its files that are not named alike get the same path.
The reports of bringing the batch into a store and of rebuilding a store from it have its paths, one
outcome for each. -/
theorem batch_distinct_iff {tree : FileTree} {paths found : List (List Char)}
    (h : sourcesAt tree paths = .ok found) (root : List Char) :
    ((readSources tree root found).paths.Nodup ↔ ∀ p ∈ found, ∀ q ∈ found,
      components p ≠ components q → ¬Alike root p q → indexedPath root p ≠ indexedPath root q) ∧
    ∀ {σ : Type} [RecordStore σ] (indexer : Indexer) (store : String),
      (∀ force, Answers (readSources tree root found).AccountedBy (indexer.addFiles store force
        (readSources tree root found).files : Indexing σ IndexReport)) ∧
      Answers (readSources tree root found).AccountedBy
        (indexer.rebuild store (readSources tree root found).files : Indexing σ IndexReport) := by
  refine ⟨?_, fun indexer store => ⟨fun force => ?_, ?_⟩⟩
  · rw [nodup_paths_iff (pairwise_sourcesAt h)]
    constructor
    · exact fun hpaths p hp q hq hne _ => hpaths p hp q hq hne
    · intro hpaths p hp q hq hne heq
      exact hpaths p hp q hq hne (fun halike => hne (halike.components_eq heq)) heq
  · exact .bind fun _ => Indexer.answers_indexBatch indexer store force _
  · exact .bind fun _ => .bind fun _ => Indexer.answers_indexBatch indexer store true _

/-- A tree with the file `a.rs`. -/
def single : FileTree where
  root := .directory [("a.rs", .file [])]

/-- With the root `.`, the file `a.rs` given as `a.rs` and as `./a.rs` is twice in the batch. -/
theorem batch_distinct_iff_dotted :
    sourcesAt single ["a.rs".toList, "./a.rs".toList] = .ok ["./a.rs".toList, "a.rs".toList] ∧
      ¬(readSources single ".".toList ["./a.rs".toList, "a.rs".toList]).paths.Nodup := by
  have hexpand : ["a.rs".toList, "./a.rs".toList].mapM (expand single) =
      .ok [["a.rs".toList], ["./a.rs".toList]] := rfl
  have hsorted : ["a.rs".toList, "./a.rs".toList].mergeSort (fun p q =>
      Path.notAfter (components p) (components q)) = ["./a.rs".toList, "a.rs".toList] := by
    rw [List.mergeSort]
    change (["a.rs".toList].mergeSort _).merge (["./a.rs".toList].mergeSort _) _ = _
    rw [List.mergeSort_singleton, List.mergeSort_singleton, List.cons_merge_cons,
      if_neg (by decide +kernel), List.merge_right]
  have hfound : sourcesAt single ["a.rs".toList, "./a.rs".toList] =
      .ok ["./a.rs".toList, "a.rs".toList] := by
    rw [sourcesAt, hexpand]
    change Except.ok (dropRepeats (["a.rs".toList, "./a.rs".toList].mergeSort _)) = _
    rw [hsorted, dropRepeats, if_neg (by decide), dropRepeats]
  refine ⟨hfound, fun hnodup => ?_⟩
  have hdiffer := (batch_distinct_iff hfound ".".toList).1.1 hnodup "./a.rs".toList (by simp)
    "a.rs".toList (by simp) (by decide) (fun halike => absurd (halike.dot_iff.1 rfl) (by decide))
  exact hdiffer (by decide +kernel)

end Files

end CodeIndex
