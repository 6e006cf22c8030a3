import Mathlib.Data.List.Dedup
import CodeIndex.Proofs.Store.Backends

/-!
# What deletions report

A deletion of documents answers with the paths of the documents and the identifiers of the chunks
that it has removed.  `Shelf.Removes` says that these are the right ones.  How often they are listed
depends on the backend: in memory a document is gone when its path comes up again, whereas the
database looks all paths up before it removes anything.

## Main definitions

* `Shelf.Removes` relates a shelf and a removal to the answer.
* `RemovalLaws` says what the deletions of a store answer, where `Once` are the lists of paths that
  are answered without repetition; `BackendKind.Once` are those of a backend.

## Main results

* `Shelf.Removes.append`: one removal after the other.
* `Shelf.Removes.counts`: how far the counters of a store go down.
* `Backend.exists_removalLaws`: the backends that keep their records themselves obey the laws.
-/

namespace CodeIndex

open LawfulStore (Valid startsWith)

/-! ## Lists of what was removed -/

theorem nodup_append_iff {texts others : List String} (h : ∀ text ∈ others, text ∉ texts) :
    (texts ++ others).Nodup ↔ texts.Nodup ∧ others.Nodup := by
  rw [List.nodup_append]
  refine ⟨fun hboth => ⟨hboth.1, hboth.2.1⟩, fun hboth => ⟨hboth.1, hboth.2, ?_⟩⟩
  rintro text htext other hother rfl
  exact h text hother htext

/-- The number of things, if some are kept and the others are gone; what is gone may be listed more
than once. -/
theorem length_eq_add_of_mem_iff {all kept gone : List String} (hall : all.Nodup)
    (hkept : kept.Nodup) (hdisjoint : ∀ a ∈ kept, a ∉ gone)
    (hmem : ∀ a, a ∈ all ↔ a ∈ kept ∨ a ∈ gone) :
    all.length = kept.length + gone.dedup.length := by
  have hboth : (kept ++ gone.dedup).Nodup := by
    refine (nodup_append_iff fun a hgone hmem => ?_).2 ⟨hkept, List.nodup_dedup gone⟩
    exact hdisjoint a hmem (List.mem_dedup.1 hgone)
  have hperm : all.Perm (kept ++ gone.dedup) := by
    refine (List.perm_ext_iff_of_nodup hall hboth).2 fun a => ?_
    rw [hmem, List.mem_append, List.mem_dedup]
  rw [hperm.length_eq, List.length_append]

namespace RemovedDocuments

/-- What two removals have removed, one after the other. -/
def append (removed other : RemovedDocuments) : RemovedDocuments :=
  ⟨removed.paths ++ other.paths, removed.chunkIds ++ other.chunkIds⟩

@[simp] theorem append_empty (removed : RemovedDocuments) : removed.append {} = removed := by
  simp [append]

theorem append_assoc (first second third : RemovedDocuments) :
    (first.append second).append third = first.append (second.append third) := by
  simp [append]

theorem foldl_addNew_eq_append {texts other : List String} (hother : other.Nodup)
    (hdisjoint : ∀ text ∈ other, text ∉ texts) : other.foldl addNew texts = texts ++ other := by
  induction other generalizing texts with
  | nil => exact (List.append_nil texts).symm
  | cons text rest ih =>
    obtain ⟨htext, hrest⟩ := List.nodup_cons.1 hother
    have hnew : addNew texts text = texts ++ [text] := by
      have hnotMem : text ∉ texts := hdisjoint text List.mem_cons_self
      simp [addNew, hnotMem]
    have hlater : ∀ later ∈ rest, later ∉ texts ++ [text] := by
      intro later hmem hlater
      obtain hbefore | heq := List.mem_append.1 hlater
      · exact hdisjoint later (List.mem_cons_of_mem text hmem) hbefore
      · rw [List.mem_singleton.1 heq] at hmem
        exact htext hmem
    rw [List.foldl_cons, hnew, ih hrest hlater, List.append_assoc, List.singleton_append]

/-- Merging only appends, if there is nothing to be left out. -/
theorem merge_eq_append {removed other : RemovedDocuments} (hpaths : other.paths.Nodup)
    (hchunkIds : other.chunkIds.Nodup) (hpathsDisjoint : ∀ path ∈ other.paths, path ∉ removed.paths)
    (hchunkIdsDisjoint : ∀ id ∈ other.chunkIds, id ∉ removed.chunkIds) :
    removed.merge other = removed.append other := by
  rw [merge, foldl_addNew_eq_append hpaths hpathsDisjoint,
    foldl_addNew_eq_append hchunkIds hchunkIdsDisjoint, append]

end RemovedDocuments

/-! ## Removals from a shelf -/

namespace Shelf

/-- The number of documents counts the paths that have one. -/
theorem Counts.paths {σ : Type} [RecordStore σ] [LawfulStore σ] {s : σ} {name : String}
    {shelf : Shelf} {stats : StoreStats} (h : shelf.Counts name stats) (hs : Valid s)
    (hheld : held s name = some shelf) : ∃ paths : List String, paths.Nodup ∧
      (∀ path, path ∈ paths ↔ (shelf.documents path).isSome) ∧ stats.documents = paths.length := by
  obtain ⟨listed, hlisted, hlength, -⟩ := h.documents
  refine ⟨listed.map (·.path), ?_, fun path => ⟨fun hmem => ?_, fun hpath => ?_⟩, ?_⟩
  · exact List.pairwise_map.2 (hlisted.ascending.imp ne_of_lt)
  · obtain ⟨document, hdocument, rfl⟩ := List.mem_map.1 hmem
    obtain ⟨stored, hstored, -⟩ := (hlisted.mem_iff document).1 hdocument
    rw [hstored]
    rfl
  · exact path_mem_of_listsAll hs hheld hlisted hpath
  · rw [hlength, List.length_map]

theorem chunks_dropWhere_iff {shelf : Shelf} {drop : String → Bool} {id : String}
    {chunk : ChunkRecord} :
    (shelf.dropWhere drop).chunks id = some chunk ↔ shelf.chunks id = some chunk ∧
      ¬ (drop chunk.path ∧ (shelf.documents chunk.path).isSome) := by
  simp only [dropWhere, Option.filter_eq_some_iff, Bool.not_eq_true', Bool.and_eq_false_iff]
  refine and_congr_right fun _ => ?_
  cases drop chunk.path <;> cases (shelf.documents chunk.path).isSome <;> simp

theorem documents_dropWhere_isSome {shelf : Shelf} {drop : String → Bool} {path : String} :
    ((shelf.dropWhere drop).documents path).isSome ↔
      ¬ drop path ∧ (shelf.documents path).isSome := by
  cases hpath : drop path <;> simp [dropWhere, hpath]

/-- The answer to a removal of the documents whose paths have a property.  It lists what the shelf
has lost; a document that is listed once brings its chunks once. -/
structure Removes (shelf : Shelf) (drop : String → Bool) (removed : RemovedDocuments) : Prop where
  paths : ∀ path, path ∈ removed.paths ↔ drop path ∧ (shelf.documents path).isSome
  chunkIds : ∀ id, id ∈ removed.chunkIds ↔ ∃ chunk, shelf.chunks id = some chunk ∧
    drop chunk.path ∧ (shelf.documents chunk.path).isSome
  nodup : removed.paths.Nodup → removed.chunkIds.Nodup

namespace Removes

variable {shelf : Shelf} {first second : String → Bool} {removed other : RemovedDocuments}

theorem congr (h : shelf.Removes first removed)
    (hdrop : ∀ path, (shelf.documents path).isSome → first path = second path) :
    shelf.Removes second removed where
  paths path := (h.paths path).trans (and_congr_left fun hpath => by rw [hdrop path hpath])
  chunkIds id := (h.chunkIds id).trans (exists_congr fun chunk => and_congr_right fun _ =>
    and_congr_left fun hpath => by rw [hdrop chunk.path hpath])
  nodup := h.nodup

theorem empty (shelf : Shelf) : shelf.Removes (fun _ => false) {} where
  paths path := by simp
  chunkIds id := by simp
  nodup _ := List.nodup_nil

/-- What has been removed is not removed again. -/
theorem paths_disjoint (h : shelf.Removes first removed)
    (h' : (shelf.dropWhere first).Removes second other) :
    ∀ path ∈ other.paths, path ∉ removed.paths := by
  intro path hother hremoved
  have hdropped : first path = true := ((h.paths path).1 hremoved).1
  have hleft := ((h'.paths path).1 hother).2
  simp [dropWhere, hdropped] at hleft

theorem chunkIds_disjoint (h : shelf.Removes first removed)
    (h' : (shelf.dropWhere first).Removes second other) :
    ∀ id ∈ other.chunkIds, id ∉ removed.chunkIds := by
  intro id hother hremoved
  obtain ⟨chunk, hchunk, hdropped⟩ := (h.chunkIds id).1 hremoved
  obtain ⟨chunk', hchunk', -⟩ := (h'.chunkIds id).1 hother
  obtain ⟨hsame, hleft⟩ := chunks_dropWhere_iff.1 hchunk'
  obtain rfl : chunk = chunk' := Option.some.inj (hchunk.symm.trans hsame)
  exact hleft hdropped

theorem paths_nodup_append (h : shelf.Removes first removed)
    (h' : (shelf.dropWhere first).Removes second other) :
    (removed.append other).paths.Nodup ↔ removed.paths.Nodup ∧ other.paths.Nodup :=
  nodup_append_iff (h.paths_disjoint h')

/-- One removal after the other. -/
theorem append (h : shelf.Removes first removed)
    (h' : (shelf.dropWhere first).Removes second other) :
    shelf.Removes (fun path => first path || second path) (removed.append other) where
  paths path := by
    rw [RemovedDocuments.append, List.mem_append, h.paths, h'.paths, documents_dropWhere_isSome,
      Bool.or_eq_true]
    tauto
  chunkIds id := by
    rw [RemovedDocuments.append, List.mem_append, h.chunkIds, h'.chunkIds]
    constructor
    · rintro (⟨chunk, hchunk, hdrop, hdocument⟩ | ⟨chunk, hchunk, hdrop, hdocument⟩)
      · exact ⟨chunk, hchunk, by rw [hdrop, Bool.true_or], hdocument⟩
      · exact ⟨chunk, (chunks_dropWhere_iff.1 hchunk).1, by rw [hdrop, Bool.or_true],
          (documents_dropWhere_isSome.1 hdocument).2⟩
    · rintro ⟨chunk, hchunk, hdrop, hdocument⟩
      by_cases hfirst : first chunk.path
      · exact .inl ⟨chunk, hchunk, hfirst, hdocument⟩
      · have hsecond : second chunk.path := (Bool.or_eq_true_iff.1 hdrop).resolve_left hfirst
        refine .inr ⟨chunk, chunks_dropWhere_iff.2 ⟨hchunk, fun hgone => hfirst hgone.1⟩, hsecond,
          documents_dropWhere_isSome.2 ⟨hfirst, hdocument⟩⟩
  nodup hpaths := by
    obtain ⟨hremoved, hother⟩ := (h.paths_nodup_append h').1 hpaths
    exact (nodup_append_iff (h.chunkIds_disjoint h')).2 ⟨h.nodup hremoved, h'.nodup hother⟩

/-- A removal that is merged into an earlier one. -/
theorem merge_eq_append (h : shelf.Removes first removed)
    (h' : (shelf.dropWhere first).Removes second other) (hother : other.paths.Nodup) :
    removed.merge other = removed.append other :=
  RemovedDocuments.merge_eq_append hother (h'.nodup hother) (h.paths_disjoint h')
    (h.chunkIds_disjoint h')

/-- The counters go down by as much as is listed, not counting repetitions. -/
theorem counts {σ : Type} [RecordStore σ] [LawfulStore σ] {s s' : σ} {name : String}
    {drop : String → Bool} {earlier later : StoreStats} (h : shelf.Removes drop removed)
    (hs : Valid s) (hheld : held s name = some shelf) (hearlier : shelf.Counts name earlier)
    (hs' : Valid s') (hheld' : held s' name = some (shelf.dropWhere drop))
    (hlater : (shelf.dropWhere drop).Counts name later) :
    earlier.documents = later.documents + removed.paths.dedup.length ∧
      earlier.chunks = later.chunks + removed.chunkIds.dedup.length := by
  constructor
  · obtain ⟨paths, hpaths, hmem, hlength⟩ := hearlier.paths hs hheld
    obtain ⟨paths', hpaths', hmem', hlength'⟩ := hlater.paths hs' hheld'
    rw [hlength, hlength']
    refine length_eq_add_of_mem_iff hpaths hpaths' ?_ fun path => ?_
    · intro path hkept hremoved
      exact (documents_dropWhere_isSome.1 ((hmem' path).1 hkept)).1 ((h.paths path).1 hremoved).1
    · rw [hmem, hmem', h.paths, documents_dropWhere_isSome]
      tauto
  · obtain ⟨ids, hids, hmem, hlength⟩ := hearlier.chunks
    obtain ⟨ids', hids', hmem', hlength'⟩ := hlater.chunks
    rw [hlength, hlength']
    refine length_eq_add_of_mem_iff hids hids' ?_ fun id => ?_
    · intro id hkept hremoved
      obtain ⟨chunk, hchunk, hdropped⟩ := (h.chunkIds id).1 hremoved
      obtain ⟨chunk', hchunk'⟩ := Option.isSome_iff_exists.1 ((hmem' id).1 hkept)
      obtain ⟨hsame, hleft⟩ := chunks_dropWhere_iff.1 hchunk'
      obtain rfl : chunk = chunk' := Option.some.inj (hchunk.symm.trans hsame)
      exact hleft hdropped
    · rw [hmem, hmem', h.chunkIds, Option.isSome_iff_exists, Option.isSome_iff_exists]
      simp only [chunks_dropWhere_iff]
      constructor
      · rintro ⟨chunk, hchunk⟩
        by_cases hdropped : drop chunk.path ∧ (shelf.documents chunk.path).isSome
        · exact .inr ⟨chunk, hchunk, hdropped⟩
        · exact .inl ⟨chunk, hchunk, hdropped⟩
      · rintro (⟨chunk, hchunk, -⟩ | ⟨chunk, hchunk, -⟩) <;> exact ⟨chunk, hchunk⟩

end Removes

end Shelf

/-! ## What the stores answer -/

/-- What deletions answer.  `Once` says which lists of paths are answered without repetition. -/
structure RemovalLaws (σ : Type) [RecordStore σ] [LawfulStore σ]
    (Once : Shelf → List String → Prop) : Prop where
  dropDocuments {s : σ} {name : String} {shelf : Shelf} {removed : RemovedDocuments}
    (paths : List String) : Valid s → held s name = some shelf →
      (RecordStore.dropDocuments name paths s).1 = .ok removed →
      shelf.Removes paths.contains removed ∧ (removed.paths.Nodup ↔ Once shelf paths)
  dropDocumentsBelow {s : σ} {name : String} {shelf : Shelf} {removed : RemovedDocuments}
    (start : String) : Valid s → held s name = some shelf →
      (RecordStore.dropDocumentsBelow name start s).1 = .ok removed →
      shelf.Removes (startsWith σ start) removed ∧ removed.paths.Nodup

/-! ### In memory -/

namespace Collection

variable {col : Collection}

/-- What is removed now comes after what has been removed before. -/
theorem dropDocument_eq_append (col : Collection) (removed : RemovedDocuments) (path : String) :
    col.dropDocument removed path =
      (removed.append (col.dropDocument {} path).1, (col.dropDocument {} path).2) := by
  unfold dropDocument
  split
  · simp [RemovedDocuments.append]
  · simp

theorem foldl_dropDocument (col : Collection) (removed : RemovedDocuments) (paths : List String) :
    paths.foldl (fun (removed, col) path => col.dropDocument removed path) (removed, col) =
      (removed.append (col.dropDocuments paths).1, (col.dropDocuments paths).2) := by
  unfold dropDocuments
  induction paths generalizing col removed with
  | nil => simp
  | cons path rest ih =>
    rw [List.foldl_cons, List.foldl_cons]
    dsimp only
    rw [dropDocument_eq_append, ih,
      ih (col.dropDocument {} path).2 (col.dropDocument {} path).1, RemovedDocuments.append_assoc]

theorem dropDocuments_cons (col : Collection) (path : String) (rest : List String) :
    col.dropDocuments (path :: rest) =
      ((col.dropDocument {} path).1.append ((col.dropDocument {} path).2.dropDocuments rest).1,
        ((col.dropDocument {} path).2.dropDocuments rest).2) :=
  foldl_dropDocument (col.dropDocument {} path).2 (col.dropDocument {} path).1 rest

theorem removes_dropDocument (h : col.Valid) (path : String) :
    col.shelf.Removes (· == path) (col.dropDocument {} path).1 ∧
      (col.dropDocument {} path).1.paths.Nodup := by
  unfold dropDocument
  split
  · next hpath =>
    rw [Std.TreeMap.contains_iff_mem] at hpath
    refine ⟨{ paths := fun path' => ?_, chunkIds := fun id => ?_, nodup := fun _ => ?_ }, ?_⟩
    · by_cases hpath' : path' = path
      · simp [shelf, hpath', hpath]
      · simp [hpath']
    · have hid : id ∈ col.byPath.idsOf path ↔
          ∃ chunk, col.chunks[id]? = some chunk ∧ chunk.path = path :=
        ChunkTable.mem_idsOf.trans (h.byPath path id)
      cases hchunk : col.chunks[id]? with
      | none => simp [shelf, hchunk, hid]
      | some chunk =>
        by_cases hat : chunk.path = path
        · simp [shelf, hchunk, hid, hat, hpath]
        · simp [shelf, hchunk, hid, hat]
    · exact (col.byPath.ascending_idsOf path).imp ne_of_lt
    · exact List.nodup_singleton path
  · next hpath =>
    rw [Std.TreeMap.contains_iff_mem] at hpath
    refine ⟨(Shelf.Removes.empty col.shelf).congr fun path' hpath' => ?_, List.nodup_nil⟩
    have hne : path' ≠ path := by
      rintro rfl
      exact hpath (by simpa [shelf] using hpath')
    exact (beq_false_of_ne hne).symm

/-- A path that comes up again has no document any more, so no path is listed twice. -/
theorem removes_dropDocuments (h : col.Valid) (paths : List String) :
    col.shelf.Removes paths.contains (col.dropDocuments paths).1 ∧
      (col.dropDocuments paths).1.paths.Nodup := by
  induction paths generalizing col with
  | nil => exact ⟨.empty col.shelf, List.nodup_nil⟩
  | cons path rest ih =>
    obtain ⟨hfirst, hnodup⟩ := removes_dropDocument h path
    obtain ⟨hrest, hnodup'⟩ := ih (h.dropDocument {} path)
    rw [shelf_dropDocument h] at hrest
    rw [dropDocuments_cons]
    refine ⟨(hfirst.append hrest).congr fun path' _ => ?_,
      (hfirst.paths_nodup_append hrest).2 ⟨hnodup, hnodup'⟩⟩
    rw [List.contains_cons]

theorem removes_dropDocuments_below (h : col.Valid) (start : String) :
    col.shelf.Removes (fun path => start.toList.isPrefixOf path.toList)
        (col.dropDocuments (col.pathsBelow start)).1 ∧
      (col.dropDocuments (col.pathsBelow start)).1.paths.Nodup := by
  obtain ⟨hremoves, hnodup⟩ := removes_dropDocuments h (col.pathsBelow start)
  exact ⟨hremoves.congr fun path hpath => col.contains_pathsBelow start hpath, hnodup⟩

end Collection

namespace MemoryStore

/-- A change that is answered was made to a collection. -/
theorem exists_of_changing_eq_ok {m : MemoryStore} (hm : m.Valid) {name : String} {shelf : Shelf}
    (hheld : held m name = some shelf) {α : Type} {change : Collection → α × Collection} {answer : α}
    (hanswer : (changing name change m).1 = .ok answer) :
    ∃ col : Collection, col.Valid ∧ col.shelf = shelf ∧ (change col).1 = answer := by
  rw [held_eq hm] at hheld
  obtain ⟨col, hcol, hshelf⟩ := Option.map_eq_some_iff.1 hheld
  rw [changing, hcol] at hanswer
  exact ⟨col, hm name col hcol, hshelf, Except.ok.inj hanswer⟩

theorem removalLaws : RemovalLaws MemoryStore fun _ _ => True := by
  constructor
  · intro m name shelf removed paths hm hheld hanswer
    obtain ⟨col, hcol, rfl, rfl⟩ := exists_of_changing_eq_ok hm hheld hanswer
    obtain ⟨hremoves, hnodup⟩ := Collection.removes_dropDocuments hcol paths
    exact ⟨hremoves, iff_true_intro hnodup⟩
  · intro m name shelf removed start hm hheld hanswer
    obtain ⟨col, hcol, rfl, rfl⟩ := exists_of_changing_eq_ok hm hheld hanswer
    exact Collection.removes_dropDocuments_below hcol start

end MemoryStore

/-! ### On a database -/

namespace Database

variable {db : Database}

theorem mem_chunkIds_at (h : db.Valid) {store path id : String} :
    id ∈ db.chunkIdsWhere (fun c => c.store == store && c.path == path) ↔
      ∃ chunk, (db.shelf store).chunks id = some chunk ∧ chunk.path = path := by
  refine (mem_chunkIdsWhere h fun chunk => chunk.path == path).trans ?_
  simp only [beq_iff_eq]

/-- Every path is looked up in the same tables, so a path that comes up again is listed again. -/
theorem removes_removalsOf (h : db.Valid) (store : String) (paths : List String) :
    (db.shelf store).Removes paths.contains (db.removalsOf store paths) where
  paths path := by
    rw [paths_removalsOf, List.mem_filter, any_isDocument, List.contains_iff_mem]
  chunkIds id := by
    rw [removalsOf_eq, List.mem_flatMap]
    simp only [mem_chunkIds_at h, List.mem_filter, any_isDocument, List.contains_iff_mem]
    constructor
    · rintro ⟨_, hpath, chunk, hchunk, rfl⟩
      exact ⟨chunk, hchunk, hpath⟩
    · rintro ⟨chunk, hchunk, hpath⟩
      exact ⟨chunk.path, hpath, chunk, hchunk, rfl⟩
  nodup hpaths := by
    rw [removalsOf_eq] at hpaths ⊢
    rw [List.nodup_flatMap]
    refine ⟨fun path _ => ?_, hpaths.imp fun {path path'} hne => ?_⟩
    · exact (ascending_chunkIdsWhere h store fun c => c.path == path).imp ne_of_lt
    -- A chunk stands at one path.
    intro id hid hid'
    obtain ⟨chunk, hchunk, rfl⟩ := (mem_chunkIds_at h).1 hid
    obtain ⟨chunk', hchunk', rfl⟩ := (mem_chunkIds_at h).1 hid'
    obtain rfl : chunk = chunk' := Option.some.inj (hchunk.symm.trans hchunk')
    exact hne rfl

theorem removes_removalsOf_below (h : db.Valid) (store start : String) :
    (db.shelf store).Removes (Database.startsWith start)
        (db.removalsOf store (db.pathsBelow store start)) ∧
      (db.removalsOf store (db.pathsBelow store start)).paths.Nodup := by
  constructor
  · refine (removes_removalsOf h store (db.pathsBelow store start)).congr fun path hpath => ?_
    rw [Bool.eq_iff_iff, List.contains_iff_mem, mem_pathsBelow h]
    exact and_iff_right hpath
  · have hrows : ((db.documentRows store).map (·.path)).Pairwise (· < ·) :=
      (pairwise_lt_mergeSort DocumentRow.path (h.nodup_paths store)).map _ fun _ _ hlt => hlt
    have hbelow : (db.pathsBelow store start).Nodup :=
      (hrows.imp ne_of_lt).sublist (List.filter_sublist.map _)
    rw [paths_removalsOf]
    exact hbelow.filter _

/-- What a deletion answers is what was looked up. -/
theorem removalsOf_of_changing_eq_ok (h : db.Valid) {name : String} {shelf : Shelf}
    (hheld : held db name = some shelf) {paths : Database → List String}
    {removed : RemovedDocuments}
    (hanswer : (changing name (fun db => .ok (db.dropPaths name (paths db))) db).1 = .ok removed) :
    db.shelf name = shelf ∧ db.removalsOf name (paths db) = removed := by
  have hname : name ∈ db.stores := by
    by_contra hname
    simp [held_eq h, hname] at hheld
  rw [held_eq h, if_pos hname] at hheld
  refine ⟨Option.some.inj hheld, ?_⟩
  simpa [changing, checkStore, hasStore_iff.2 hname, dropPaths, bind, Except.bind] using hanswer

theorem removalLaws :
    RemovalLaws Database fun shelf paths =>
      (paths.filter fun path => (shelf.documents path).isSome).Nodup := by
  constructor
  · intro db name shelf removed paths h hheld hanswer
    obtain ⟨rfl, rfl⟩ := removalsOf_of_changing_eq_ok h hheld hanswer
    refine ⟨removes_removalsOf h name paths, ?_⟩
    simp only [paths_removalsOf, any_isDocument]
  · intro db name shelf removed start h hheld hanswer
    obtain ⟨rfl, rfl⟩ := removalsOf_of_changing_eq_ok h hheld hanswer
    exact removes_removalsOf_below h name start

end Database

/-! ### The backends -/

/-- Which lists of paths a backend answers without repetition: in memory all of them, and on a
database those that do not repeat a path that has a document. -/
def BackendKind.Once : BackendKind → Shelf → List String → Prop
  | .memory => fun _ _ => True
  | .relational | .vector => fun shelf paths =>
    (paths.filter fun path => (shelf.documents path).isSome).Nodup

namespace Backend

theorem removalLaws_lawful {σ : Type} [RecordStore σ] [LawfulStore σ] {wrap : σ → Backend}
    (hwrap : Wraps wrap) {Once : Shelf → List String → Prop} (h : RemovalLaws σ Once) :
    @RemovalLaws Backend _ (lawful wrap hwrap) Once := by
  refine @RemovalLaws.mk Backend _ (lawful wrap hwrap) Once ?_ ?_
  · rintro _ name shelf removed paths ⟨s, rfl, hs⟩ hheld hanswer
    have hcall : RecordStore.dropDocuments name paths (wrap s) = _ :=
      hwrap _ (fun _ => RecordStore.dropDocuments name paths) s
    rw [held_wrap hwrap] at hheld
    rw [hcall] at hanswer
    exact h.dropDocuments paths hs hheld hanswer
  · rintro _ name shelf removed start ⟨s, rfl, hs⟩ hheld hanswer
    have hcall : RecordStore.dropDocumentsBelow name start (wrap s) = _ :=
      hwrap _ (fun _ => RecordStore.dropDocumentsBelow name start) s
    rw [held_wrap hwrap] at hheld
    rw [hcall] at hanswer
    exact h.dropDocumentsBelow start hs hheld hanswer

/-- The backends that keep their records locally obey the laws of removals. -/
theorem exists_removalLaws {kind : BackendKind} (hkind : kind ≠ .vector) :
    ∃ laws : LawfulStore Backend, laws.Valid (fresh kind) ∧ laws.startsWith = kind.startsWith ∧
      @RemovalLaws Backend _ laws kind.Once := by
  cases kind with
  | memory =>
    exact ⟨lawful memory wraps_memory, ⟨{}, rfl, MemoryStore.valid_empty⟩, rfl,
      removalLaws_lawful wraps_memory MemoryStore.removalLaws⟩
  | relational =>
    exact ⟨lawful relational wraps_relational, ⟨{}, rfl, Database.valid_empty⟩, rfl,
      removalLaws_lawful wraps_relational Database.removalLaws⟩
  | vector => exact absurd rfl hkind

end Backend

end CodeIndex
