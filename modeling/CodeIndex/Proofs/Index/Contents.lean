import Mathlib.Data.Set.Finite.Basic
import CodeIndex.Proofs.Index.Operations

/-!
# Stores as maps from paths to contents

Seen from outside, a store of the index is a map from paths to the contents of files: a file that
is indexed sets its path, and a deletion forgets paths.  `Reflects` ties such a map to a shelf, on
which exactly the documents and chunks of these contents stand.

## Main definitions

* `Contents` are such maps, and `Contents.without` is a map after a deletion.
* `Reflects` says that a shelf has what a map says and nothing else.

## Main results

* `Reflects.written`, `Reflects.wiped`, `Reflects.dropWhere`: how the changes for a file and the
  deletions act on the map.
* `FileRun.reflects` and `BatchRun.reflects`: whatever store calls fail, a shelf reflects some map
  after a file or a batch, unless the removal of chunks fails early or a document is written late.
-/

namespace CodeIndex

open Indexing ScriptedStore

/-- The content that is stored at each path. -/
abbrev Contents := String → Option (List UInt8)

/-- The contents at the paths that a deletion leaves. -/
def Contents.without (contents : Contents) (drop : String → Bool) : Contents :=
  fun path => if drop path then none else contents path

/-- On the shelf stand the files that the map has, and nothing else. -/
structure Reflects (indexer : Indexer) (files : List SourceFile) (contents : Contents)
    (shelf : Shelf) : Prop where
  finite : {path | contents path ≠ none}.Finite
  /-- The contents are those of given files. -/
  known : ∀ path content, contents path = some content → ⟨path, content⟩ ∈ files
  holds : ∀ path content, contents path = some content → shelf.Holds indexer ⟨path, content⟩
  vacant : ∀ path, contents path = none → shelf.Vacant path
  sourced : shelf.Sourced indexer files

variable {indexer : Indexer} {files : List SourceFile} {contents : Contents} {shelf : Shelf}
  {file : SourceFile} {cut : List Chunk}

theorem reflects_empty : Reflects indexer files (fun _ => none) {} where
  finite := by simp
  known path content h := by cases h
  holds path content h := by cases h
  vacant path _ := Shelf.vacant_empty path
  sourced := Shelf.sourced_empty

namespace Reflects

/-- At every path with chunks there is a document. -/
theorem settled (h : Reflects indexer files contents shelf) (path : String) :
    (shelf.documents path).isSome ∨ shelf.Vacant path := by
  cases hcontent : contents path with
  | none => exact .inr (h.vacant path hcontent)
  | some content =>
    obtain ⟨now, hnow⟩ := (h.holds path content hcontent).document
    exact .inl (by rw [hnow]; rfl)

/-- A shelf that has changed at one path only. -/
theorem update {after : Shelf} {path : String} {content : Option (List UInt8)}
    (h : Reflects indexer files contents shelf) (hsourced : after.Sourced indexer files)
    (hsame : ∀ other, path ≠ other → Shelf.SameAt other after shelf)
    (hknown : ∀ bytes, content = some bytes → ⟨path, bytes⟩ ∈ files)
    (hholds : ∀ bytes, content = some bytes → after.Holds indexer ⟨path, bytes⟩)
    (hvacant : content = none → after.Vacant path) :
    Reflects indexer files (Function.update contents path content) after where
  finite := by
    refine (h.finite.insert path).subset fun other hother => ?_
    by_cases hpath : other = path
    · exact .inl hpath
    · have hsome : Function.update contents path content other ≠ none := hother
      rw [Function.update_of_ne hpath] at hsome
      exact .inr hsome
  known other bytes hother := by
    by_cases hpath : other = path
    · subst hpath
      rw [Function.update_self] at hother
      exact hknown bytes hother
    · rw [Function.update_of_ne hpath] at hother
      exact h.known other bytes hother
  holds other bytes hother := by
    by_cases hpath : other = path
    · subst hpath
      rw [Function.update_self] at hother
      exact hholds bytes hother
    · rw [Function.update_of_ne hpath] at hother
      exact (h.holds other bytes hother).of_sameAt (hsame other (Ne.symm hpath))
  vacant other hother := by
    by_cases hpath : other = path
    · subst hpath
      rw [Function.update_self] at hother
      exact hvacant hother
    · rw [Function.update_of_ne hpath] at hother
      exact (h.vacant other hother).of_sameAt (hsame other (Ne.symm hpath))
  sourced := hsourced

/-- Removing documents forgets their paths. -/
theorem dropWhere (h : Reflects indexer files contents shelf) (drop : String → Bool) :
    Reflects indexer files (contents.without drop) (shelf.dropWhere drop) where
  finite := by
    refine h.finite.subset fun path hpath hnone => hpath ?_
    simp [Contents.without, hnone]
  known path content hcontent := by
    simp only [Contents.without] at hcontent
    split at hcontent
    · cases hcontent
    · exact h.known path content hcontent
  holds path content hcontent := by
    simp only [Contents.without] at hcontent
    split at hcontent
    · cases hcontent
    · next hkept =>
      exact (h.holds path content hcontent).of_sameAt
        (Shelf.sameAt_dropWhere (Bool.eq_false_iff.2 hkept))
  vacant path hcontent := by
    by_cases hdropped : drop path
    · exact Shelf.vacant_dropWhere hdropped (h.settled path)
    · simp only [Contents.without, if_neg hdropped] at hcontent
      exact (h.vacant path hcontent).of_sameAt
        (Shelf.sameAt_dropWhere (Bool.eq_false_iff.2 hdropped))
  sourced := h.sourced.dropWhere drop

section Distinguished

variable (hids : indexer.Distinguishes files) (hfile : file ∈ files) (hcut : indexer.Cuts file cut)

include hids hfile hcut

theorem written (h : Reflects indexer files contents shelf) (now : Int) :
    Reflects indexer files (Function.update contents file.path (some file.content))
      (shelf.written file cut now) := by
  refine h.update (h.sourced.written hfile hcut now)
    (fun other hother =>
      (h.sourced.spares hids.separatesPaths hfile hcut).sameAt_written hother now)
    (fun bytes hbytes => ?_) (fun bytes hbytes => ?_) fun hnone => by cases hnone
  · obtain rfl := Option.some.inj hbytes
    exact hfile
  · obtain rfl := Option.some.inj hbytes
    refine Shelf.holds_written hids.separatesChunks hfile hcut now ?_
    obtain hdocument | hvacant := h.settled file.path
    · exact .inl hdocument
    · exact .inr fun id record hrecord hpath => absurd hpath (hvacant.chunks id record hrecord)

theorem wiped (h : Reflects indexer files contents shelf) :
    Reflects indexer files (Function.update contents file.path none) (shelf.wiped file cut) := by
  refine h.update (h.sourced.wiped file cut)
    (fun other hother => (h.sourced.spares hids.separatesPaths hfile hcut).sameAt_wiped hother)
    (fun bytes hbytes => by cases hbytes) (fun bytes hbytes => by cases hbytes) fun _ => ?_
  exact (Shelf.vacant_dropDocuments (h.settled file.path)).dropChunks (file.idsOf cut)

end Distinguished

end Reflects

/-! ## Runs in which store calls fail -/

/-- A shelf that reflects some map. -/
def Settled (indexer : Indexer) (files : List SourceFile) (shelf : Shelf) : Prop :=
  ∃ contents, Reflects indexer files contents shelf

variable {script : FaultScript} {force : Bool} {before after : Shelf} {failed : Nat}

/-- Everything that a file leaves on the shelf comes from a file. -/
theorem FileRun.sourced {answer : Except IndexError FileOutcome}
    (h : FileRun indexer script force file before answer after failed) (hfile : file ∈ files)
    (hbefore : before.Sourced indexer files) : after.Sourced indexer files := by
  cases h with
  | skipped _ _ _ | refused _ | untouched => exact hbefore
  | indexed hcut | unreported hcut _ => exact hbefore.written hfile hcut _
  | removed => exact hbefore.dropDocuments [file.path]
  | undone hcut => exact hbefore.wiped file _
  | orphaned hcut _ => exact hbefore.staged hfile hcut
  | hollow hcut _ => exact (hbefore.wiped file _).addDocument hfile _

/-- A file leaves the shelf settled, unless the removal of its chunks fails early or its document is
written late. -/
theorem FileRun.settled {answer : Except IndexError FileOutcome}
    (h : FileRun indexer script force file before answer after failed)
    (hids : indexer.Distinguishes files) (hfile : file ∈ files)
    (hearly : ¬ script.Early .dropChunks) (hlate : ¬ script.Late .putDocument)
    (hbefore : Settled indexer files before) : Settled indexer files after := by
  obtain ⟨contents, hcontents⟩ := hbefore
  cases h with
  | skipped _ _ _ | refused _ | untouched => exact ⟨contents, hcontents⟩
  | indexed hcut => exact ⟨_, hcontents.written hids hfile hcut _⟩
  | removed => exact ⟨_, hcontents.dropWhere [file.path].contains⟩
  | undone hcut => exact ⟨_, hcontents.wiped hids hfile hcut⟩
  | orphaned _ h => exact absurd h hearly
  | hollow _ h | unreported _ h => exact absurd h hlate

theorem BatchRun.sourced {batch : List SourceFile} {outcomes : Except IndexError (List FileOutcome)}
    (h : BatchRun indexer script force batch before outcomes after failed) (hbatch : batch ⊆ files)
    (hbefore : before.Sourced indexer files) : after.Sourced indexer files := by
  induction h with
  | done | stopped => exact hbefore
  | aborted hfile _ => exact hfile.sourced (List.cons_subset.1 hbatch).1 hbefore
  | noted hfile _ _ ih =>
    obtain ⟨hmem, hrest⟩ := List.cons_subset.1 hbatch
    exact ih hrest (hfile.sourced hmem hbefore)

theorem BatchRun.settled {batch : List SourceFile} {outcomes : Except IndexError (List FileOutcome)}
    (h : BatchRun indexer script force batch before outcomes after failed)
    (hids : indexer.Distinguishes files) (hbatch : batch ⊆ files)
    (hearly : ¬ script.Early .dropChunks) (hlate : ¬ script.Late .putDocument)
    (hbefore : Settled indexer files before) : Settled indexer files after := by
  induction h with
  | done | stopped => exact hbefore
  | aborted hfile _ =>
    exact hfile.settled hids (List.cons_subset.1 hbatch).1 hearly hlate hbefore
  | noted hfile _ _ ih =>
    obtain ⟨hmem, hrest⟩ := List.cons_subset.1 hbatch
    exact ih hrest (hfile.settled hids hmem hearly hlate hbefore)

end CodeIndex
