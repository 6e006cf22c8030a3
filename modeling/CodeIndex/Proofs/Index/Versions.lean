import CodeIndex.Index.Indexer
import CodeIndex.Proofs.Chunk.Steady
import CodeIndex.Proofs.Store.Shelf

/-!
# Versions of files

What the index leaves on a shelf for a file: the record of its document and the records of the
chunks that it is cut into, all at the path of the file.  The identifiers are truncated hashes, so
two chunks can only be kept apart as long as their identifiers are; `Indexer.Distinguishes` says
that this is so among given files.

## Main definitions

* `SourceFile.document` and `SourceFile.recordsOf` are the records of a file.
* `Shelf.Holds` says that exactly these stand at the path of the file, and `Shelf.Vacant` that
  nothing stands at a path.
* `Shelf.Sourced` says that everything on a shelf comes from given files.
* `Shelf.staged` and `Shelf.written` are the shelf while a file is being written and after that.
* `Shelf.Spares` says that the chunks of a file have no identifier of a chunk at another path.

## Main results

* `holds_written` and `holds_written_iff`: when writing a file makes the shelf hold it.
* `Spares.sameAt_staged` and its companions: what is done for a file is not seen at other paths.
-/

namespace CodeIndex

namespace SourceFile

/-- The identifier of the version of a document that a file is. -/
def versionId (file : SourceFile) : String := documentId file.path (contentHash file.content)

/-- The record of the document of a file that is brought in at a given time. -/
def document (file : SourceFile) (now : Int) : DocumentRecord where
  documentId := file.versionId
  path := file.path
  contentHash := contentHash file.content
  language := (decodeSource file).2.id
  indexedAt := now

/-- The records of the chunks of a file. -/
def recordsOf (file : SourceFile) (cut : List Chunk) : List ChunkRecord :=
  cut.map (Indexer.recordOf file.path file.versionId (decodeSource file).2)

/-- The identifiers of the chunks of a file. -/
def idsOf (file : SourceFile) (cut : List Chunk) : List String :=
  (file.recordsOf cut).map (·.chunkId)

theorem path_of_mem_recordsOf {file : SourceFile} {cut : List Chunk} {record : ChunkRecord}
    (h : record ∈ file.recordsOf cut) : record.path = file.path := by
  obtain ⟨chunk, -, rfl⟩ := List.mem_map.1 h
  rfl

theorem plain_of_mem_recordsOf {file : SourceFile} {cut : List Chunk} {record : ChunkRecord}
    (h : record ∈ file.recordsOf cut) : record.plain = record := by
  obtain ⟨chunk, -, rfl⟩ := List.mem_map.1 h
  rfl

theorem map_plain_recordsOf (file : SourceFile) (cut : List Chunk) :
    (file.recordsOf cut).map .plain = file.recordsOf cut := by
  rw [recordsOf, List.map_map]
  rfl

theorem mem_idsOf {file : SourceFile} {cut : List Chunk} {record : ChunkRecord}
    (h : record ∈ file.recordsOf cut) : record.chunkId ∈ file.idsOf cut :=
  List.mem_map_of_mem h

end SourceFile

namespace Indexer

/-- The chunker can cut a file into these chunks.  It cuts a file in one way only, unless its parser
gives different trees for one text. -/
def Cuts (indexer : Indexer) (file : SourceFile) (cut : List Chunk) : Prop :=
  ∃ token, (indexer.chunker.chunks (decodeSource file).1 (decodeSource file).2
    indexer.options.window token).1 = .ok cut

/-- The identifiers keep the chunks and the versions of some files apart. -/
structure Distinguishes (indexer : Indexer) (files : List SourceFile) : Prop where
  /-- No identifier is shared by chunks at different paths. -/
  paths : ∀ first ∈ files, ∀ second ∈ files, ∀ cut cut',
    indexer.Cuts first cut → indexer.Cuts second cut' →
    ∀ record ∈ first.recordsOf cut, ∀ record' ∈ second.recordsOf cut',
      record.chunkId = record'.chunkId → first.path = second.path
  /-- No identifier is shared by two chunks of one file. -/
  chunks : ∀ file ∈ files, ∀ cut, indexer.Cuts file cut →
    ∀ record ∈ file.recordsOf cut, ∀ record' ∈ file.recordsOf cut,
      record.chunkId = record'.chunkId → record = record'
  /-- No identifier is shared by two versions of one document. -/
  versions : ∀ first ∈ files, ∀ second ∈ files, first.path = second.path →
    first.versionId = second.versionId → first.content = second.content

/-- No identifier is shared by chunks of files at different paths. -/
def SeparatesPaths (indexer : Indexer) (files : List SourceFile) : Prop :=
  ∀ first ∈ files, ∀ second ∈ files, ∀ cut cut',
    indexer.Cuts first cut → indexer.Cuts second cut' →
    ∀ record ∈ first.recordsOf cut, ∀ record' ∈ second.recordsOf cut',
      record.chunkId = record'.chunkId → first.path = second.path

/-- No identifier is shared by two chunks of one file. -/
def SeparatesChunks (indexer : Indexer) (files : List SourceFile) : Prop :=
  ∀ file ∈ files, ∀ cut, indexer.Cuts file cut →
    ∀ record ∈ file.recordsOf cut, ∀ record' ∈ file.recordsOf cut,
      record.chunkId = record'.chunkId → record = record'

theorem Distinguishes.separatesPaths {indexer : Indexer} {files : List SourceFile}
    (h : indexer.Distinguishes files) : indexer.SeparatesPaths files := h.paths

theorem Distinguishes.separatesChunks {indexer : Indexer} {files : List SourceFile}
    (h : indexer.Distinguishes files) : indexer.SeparatesChunks files := h.chunks

theorem Distinguishes.mono {indexer : Indexer} {files fewer : List SourceFile}
    (h : indexer.Distinguishes files) (hfewer : fewer ⊆ files) : indexer.Distinguishes fewer where
  paths first hfirst second hsecond := h.paths first (hfewer hfirst) second (hfewer hsecond)
  chunks file hfile := h.chunks file (hfewer hfile)
  versions first hfirst second hsecond := h.versions first (hfewer hfirst) second (hfewer hsecond)

/-- A version identifies its file among files at one path. -/
theorem Distinguishes.eq_of_version {indexer : Indexer} {files : List SourceFile}
    (h : indexer.Distinguishes files) {first second : SourceFile} (hfirst : first ∈ files)
    (hsecond : second ∈ files) (hpath : first.path = second.path)
    (hversion : first.versionId = second.versionId) : first = second := by
  have hcontent := h.versions first hfirst second hsecond hpath hversion
  cases first
  cases second
  cases hpath
  cases hcontent
  rfl

theorem Cuts.unique {indexer : Indexer} (hparser : indexer.chunker.parser.Steady)
    {file : SourceFile} {cut cut' : List Chunk} (h : indexer.Cuts file cut)
    (h' : indexer.Cuts file cut') : cut = cut' := by
  obtain ⟨token, hcut⟩ := h
  obtain ⟨token', hcut'⟩ := h'
  exact Chunker.chunks_unique hparser hcut hcut'

/-- How a file is cut if nothing is cancelled. -/
def cutOf (indexer : Indexer) (file : SourceFile) : Except ParseError (List Chunk) :=
  (indexer.chunker.chunks (decodeSource file).1 (decodeSource file).2 indexer.options.window
    .never).1

theorem cuts_iff_of_cutOf {indexer : Indexer} (hparser : indexer.chunker.parser.Steady)
    {file : SourceFile} {found : List Chunk} (h : indexer.cutOf file = .ok found)
    {cut : List Chunk} : indexer.Cuts file cut ↔ cut = found := by
  have hfound : indexer.Cuts file found := ⟨.never, h⟩
  refine ⟨fun hcut => hcut.unique hparser hfound, ?_⟩
  rintro rfl
  exact hfound

/-- A way to see that identifiers are kept apart, by cutting every file and comparing. -/
theorem separatesPaths_of_cutOf {indexer : Indexer} (hparser : indexer.chunker.parser.Steady)
    {files : List SourceFile} (cuts : SourceFile → List Chunk)
    (hcuts : ∀ file ∈ files, indexer.cutOf file = .ok (cuts file))
    (hchunks : ∀ first ∈ files, ∀ second ∈ files, ∀ chunk ∈ cuts first, ∀ chunk' ∈ cuts second,
      first.path = second.path ∨ chunkId first.path chunk.startLine chunk.endLine ≠
        chunkId second.path chunk'.startLine chunk'.endLine) :
    indexer.SeparatesPaths files := by
  intro first hfirst second hsecond cut cut' hcut hcut' record hrecord record' hrecord' hid
  obtain rfl := (cuts_iff_of_cutOf hparser (hcuts first hfirst)).1 hcut
  obtain rfl := (cuts_iff_of_cutOf hparser (hcuts second hsecond)).1 hcut'
  obtain ⟨chunk, hchunk, rfl⟩ := List.mem_map.1 hrecord
  obtain ⟨chunk', hchunk', rfl⟩ := List.mem_map.1 hrecord'
  exact (hchunks first hfirst second hsecond chunk hchunk chunk' hchunk').resolve_right (· hid)

/-- The same for all identifiers. -/
theorem distinguishes_of_cutOf {indexer : Indexer} (hparser : indexer.chunker.parser.Steady)
    {files : List SourceFile} (cuts : SourceFile → List Chunk)
    (hcuts : ∀ file ∈ files, indexer.cutOf file = .ok (cuts file))
    (hchunks : ∀ first ∈ files, ∀ second ∈ files, ∀ chunk ∈ cuts first, ∀ chunk' ∈ cuts second,
      (first.path = second.path ∧ (first = second → chunk = chunk')) ∨
        chunkId first.path chunk.startLine chunk.endLine ≠
          chunkId second.path chunk'.startLine chunk'.endLine)
    (hversions : ∀ first ∈ files, ∀ second ∈ files, first.content = second.content ∨
      first.path ≠ second.path ∨ first.versionId ≠ second.versionId) :
    indexer.Distinguishes files where
  paths := separatesPaths_of_cutOf hparser cuts hcuts
    fun first hfirst second hsecond chunk hchunk chunk' hchunk' =>
      (hchunks first hfirst second hsecond chunk hchunk chunk' hchunk').imp_left And.left
  chunks file hfile cut hcut record hrecord record' hrecord' hid := by
    obtain rfl := (cuts_iff_of_cutOf hparser (hcuts file hfile)).1 hcut
    obtain ⟨chunk, hchunk, rfl⟩ := List.mem_map.1 hrecord
    obtain ⟨chunk', hchunk', rfl⟩ := List.mem_map.1 hrecord'
    obtain ⟨-, heq⟩ | hne := hchunks file hfile file hfile chunk hchunk chunk' hchunk'
    · rw [heq rfl]
    · exact absurd hid hne
  versions first hfirst second hsecond hpath hversion := by
    obtain hcontent | hne | hne := hversions first hfirst second hsecond
    · exact hcontent
    · exact absurd hpath hne
    · exact absurd hversion hne

end Indexer

namespace Shelf

variable {indexer : Indexer} {files : List SourceFile} {file : SourceFile} {cut : List Chunk}
  {shelf before after : Shelf} {path : String}

/-! ## What stands at a path -/

/-- The document and the chunks at the path of a file are those of the file. -/
structure Holds (shelf : Shelf) (indexer : Indexer) (file : SourceFile) : Prop where
  document : ∃ now, shelf.documents file.path = some (file.document now)
  chunks : ∃ cut, indexer.Cuts file cut ∧ ∀ id record,
    shelf.chunks id = some record ∧ record.path = file.path ↔
      record ∈ file.recordsOf cut ∧ record.chunkId = id

/-- Nothing stands at a path. -/
structure Vacant (shelf : Shelf) (path : String) : Prop where
  document : shelf.documents path = none
  chunks : ∀ id record, shelf.chunks id = some record → record.path ≠ path

/-- Everything on the shelf was written for one of some files. -/
structure Sourced (shelf : Shelf) (indexer : Indexer) (files : List SourceFile) : Prop where
  documents : ∀ path document, shelf.documents path = some document →
    ∃ file ∈ files, file.path = path ∧ ∃ now, document = file.document now
  chunks : ∀ id record, shelf.chunks id = some record → record.chunkId = id ∧
    ∃ file ∈ files, ∃ cut, indexer.Cuts file cut ∧ record ∈ file.recordsOf cut

/-- The same stands at a path of two shelves. -/
structure SameAt (path : String) (first second : Shelf) : Prop where
  documents : first.documents path = second.documents path
  chunks : ∀ id record, record.path = path →
    (first.chunks id = some record ↔ second.chunks id = some record)

theorem SameAt.refl (path : String) (shelf : Shelf) : SameAt path shelf shelf :=
  ⟨rfl, fun _ _ _ => Iff.rfl⟩

theorem SameAt.trans {first second third : Shelf} (h : SameAt path first second)
    (h' : SameAt path second third) : SameAt path first third :=
  ⟨h.documents.trans h'.documents, fun id record hrecord =>
    (h.chunks id record hrecord).trans (h'.chunks id record hrecord)⟩

theorem SameAt.symm {first second : Shelf} (h : SameAt path first second) :
    SameAt path second first :=
  ⟨h.documents.symm, fun id record hrecord => (h.chunks id record hrecord).symm⟩

theorem Holds.of_sameAt (h : before.Holds indexer file) (hsame : SameAt file.path after before) :
    after.Holds indexer file := by
  obtain ⟨now, hnow⟩ := h.document
  obtain ⟨cut, hcut, hchunks⟩ := h.chunks
  refine ⟨⟨now, hsame.documents.trans hnow⟩, cut, hcut, fun id record => ?_⟩
  rw [← hchunks id record]
  exact and_congr_left fun hrecord => hsame.chunks id record hrecord

theorem Vacant.of_sameAt (h : before.Vacant path) (hsame : SameAt path after before) :
    after.Vacant path := by
  refine ⟨hsame.documents.trans h.document, fun id record hrecord hpath => ?_⟩
  exact h.chunks id record ((hsame.chunks id record hpath).1 hrecord) hpath

theorem vacant_empty (path : String) : ({} : Shelf).Vacant path :=
  ⟨rfl, fun _ _ h => by simp at h⟩

/-! ## Where things come from -/

theorem sourced_empty : ({} : Shelf).Sourced indexer files :=
  ⟨fun _ _ h => by simp at h, fun _ _ h => by simp at h⟩

theorem chunks_dropWhere_some {drop : String → Bool} {id : String} {record : ChunkRecord} :
    (shelf.dropWhere drop).chunks id = some record ↔
      shelf.chunks id = some record ∧
        ¬ (drop record.path ∧ (shelf.documents record.path).isSome) := by
  simp only [dropWhere, Option.filter_eq_some_iff, Bool.not_eq_true', Bool.and_eq_false_iff,
    not_and_or, Bool.not_eq_true]

theorem Sourced.dropWhere (h : shelf.Sourced indexer files) (drop : String → Bool) :
    (shelf.dropWhere drop).Sourced indexer files where
  documents path document hdocument := by
    simp only [Shelf.dropWhere] at hdocument
    split at hdocument
    · cases hdocument
    · exact h.documents path document hdocument
  chunks id record hrecord := h.chunks id record (chunks_dropWhere_some.1 hrecord).1

theorem chunks_dropChunks_some {ids : List String} {id : String} {record : ChunkRecord} :
    (shelf.dropChunks ids).chunks id = some record ↔
      id ∉ ids ∧ shelf.chunks id = some record := by
  simp only [dropChunks]
  split <;> simp [*]

theorem Sourced.dropChunks (h : shelf.Sourced indexer files) (ids : List String) :
    (shelf.dropChunks ids).Sourced indexer files where
  documents := h.documents
  chunks id record hrecord := h.chunks id record (chunks_dropChunks_some.1 hrecord).2

theorem Sourced.addDocument (h : shelf.Sourced indexer files) (hfile : file ∈ files) (now : Int) :
    (shelf.addDocument (file.document now)).Sourced indexer files where
  documents path document hdocument := by
    simp only [Shelf.addDocument] at hdocument
    split at hdocument
    · next hpath =>
      obtain rfl := Option.some.inj hdocument
      exact ⟨file, hfile, hpath.symm, now, rfl⟩
    · exact h.documents path document hdocument
  chunks := h.chunks

theorem Sourced.addChunks (h : shelf.Sourced indexer files) (hfile : file ∈ files)
    (hcut : indexer.Cuts file cut) :
    (shelf.addChunks (file.recordsOf cut)).Sourced indexer files where
  documents path document hdocument := by
    rw [documents_addChunks] at hdocument
    exact h.documents path document hdocument
  chunks id record hrecord := by
    obtain ⟨chunk, hchunk, hid, hplain⟩ | ⟨-, hbefore⟩ := chunks_addChunks_cases hrecord
    · rw [SourceFile.plain_of_mem_recordsOf hchunk] at hplain
      subst hplain
      exact ⟨hid, file, hfile, cut, hcut, hchunk⟩
    · exact h.chunks id record hbefore

/-! ## Changes for a file -/

theorem sameAt_dropWhere {drop : String → Bool} (h : drop path = false) :
    SameAt path (shelf.dropWhere drop) shelf where
  documents := by simp [dropWhere, h]
  chunks id record hrecord := by
    subst hrecord
    rw [chunks_dropWhere_some, h]
    simp

theorem sameAt_dropChunks {ids : List String}
    (h : ∀ id ∈ ids, ∀ record, shelf.chunks id = some record → record.path ≠ path) :
    SameAt path (shelf.dropChunks ids) shelf where
  documents := rfl
  chunks id record hrecord := by
    rw [chunks_dropChunks_some]
    exact ⟨And.right, fun hstored => ⟨fun hid => h id hid record hstored hrecord, hstored⟩⟩

theorem sameAt_addChunks {chunks : List ChunkRecord} (hchunks : ∀ chunk ∈ chunks, chunk.path ≠ path)
    (h : ∀ id ∈ chunks.map (·.chunkId), ∀ record, shelf.chunks id = some record →
      record.path ≠ path) : SameAt path (shelf.addChunks chunks) shelf where
  documents := by rw [documents_addChunks]
  chunks id record hrecord := by
    constructor
    · intro hafter
      obtain ⟨chunk, hchunk, -, rfl⟩ | ⟨-, hbefore⟩ := chunks_addChunks_cases hafter
      · exact absurd hrecord (hchunks chunk hchunk)
      · exact hbefore
    · intro hbefore
      have hid : id ∉ chunks.map (·.chunkId) := fun hid => h id hid record hbefore hrecord
      rwa [chunks_addChunks_of_notMem shelf hid]

theorem sameAt_addDocument {document : DocumentRecord} (h : document.path ≠ path) :
    SameAt path (shelf.addDocument document) shelf where
  documents := if_neg (Ne.symm h)
  chunks _ _ _ := Iff.rfl

/-- The shelf when the chunks of a file are written and its document is not. -/
def staged (shelf : Shelf) (file : SourceFile) (cut : List Chunk) : Shelf :=
  (shelf.dropDocuments [file.path]).addChunks (file.recordsOf cut)

/-- The shelf when the file is written. -/
def written (shelf : Shelf) (file : SourceFile) (cut : List Chunk) (now : Int) : Shelf :=
  (shelf.staged file cut).addDocument (file.document now)

/-- The shelf when the old version is removed, and whatever was written of the new one. -/
def wiped (shelf : Shelf) (file : SourceFile) (cut : List Chunk) : Shelf :=
  (shelf.dropDocuments [file.path]).dropChunks (file.idsOf cut)

theorem dropChunks_staged (shelf : Shelf) (file : SourceFile) (cut : List Chunk) :
    (shelf.staged file cut).dropChunks (file.idsOf cut) = shelf.wiped file cut :=
  dropChunks_addChunks (shelf.dropDocuments [file.path]) (file.recordsOf cut)

theorem Sourced.dropDocuments (h : shelf.Sourced indexer files) (paths : List String) :
    (shelf.dropDocuments paths).Sourced indexer files :=
  h.dropWhere paths.contains

theorem Sourced.staged (h : shelf.Sourced indexer files) (hfile : file ∈ files)
    (hcut : indexer.Cuts file cut) : (shelf.staged file cut).Sourced indexer files :=
  (h.dropDocuments [file.path]).addChunks hfile hcut

theorem Sourced.written (h : shelf.Sourced indexer files) (hfile : file ∈ files)
    (hcut : indexer.Cuts file cut) (now : Int) :
    (shelf.written file cut now).Sourced indexer files :=
  (h.staged hfile hcut).addDocument hfile now

theorem Sourced.wiped (h : shelf.Sourced indexer files) (file : SourceFile) (cut : List Chunk) :
    (shelf.wiped file cut).Sourced indexer files :=
  (h.dropDocuments [file.path]).dropChunks (file.idsOf cut)

/-- No chunk at another path has an identifier of a file's chunk. -/
def Spares (shelf : Shelf) (file : SourceFile) (cut : List Chunk) : Prop :=
  ∀ id ∈ file.idsOf cut, ∀ record, shelf.chunks id = some record → record.path = file.path

theorem Sourced.spares (h : shelf.Sourced indexer files) (hids : indexer.SeparatesPaths files)
    (hfile : file ∈ files) (hcut : indexer.Cuts file cut) : shelf.Spares file cut := by
  intro id hid record hrecord
  obtain ⟨hstored, other, hother, cut', hcut', hmem⟩ := h.chunks id record hrecord
  obtain ⟨chunk, hchunk, hid⟩ := List.mem_map.1 hid
  rw [SourceFile.path_of_mem_recordsOf hmem]
  exact hids other hother file hfile cut' cut hcut' hcut record hmem chunk hchunk
    (hstored.trans hid.symm)

namespace Spares

theorem dropDocuments (h : shelf.Spares file cut) (paths : List String) :
    (shelf.dropDocuments paths).Spares file cut :=
  fun id hid record hrecord => h id hid record (chunks_dropWhere_some.1 hrecord).1

theorem sameAt_staged (h : shelf.Spares file cut) (hpath : file.path ≠ path) :
    SameAt path (shelf.staged file cut) shelf := by
  have hcleared : SameAt path (shelf.dropDocuments [file.path]) shelf :=
    sameAt_dropWhere (by simpa using hpath.symm)
  refine (sameAt_addChunks (fun chunk hchunk => ?_) fun id hid record hrecord => ?_).trans hcleared
  · rwa [SourceFile.path_of_mem_recordsOf hchunk]
  · rwa [h.dropDocuments [file.path] id hid record hrecord]

theorem sameAt_written (h : shelf.Spares file cut) (hpath : file.path ≠ path) (now : Int) :
    SameAt path (shelf.written file cut now) shelf :=
  (sameAt_addDocument hpath).trans (h.sameAt_staged hpath)

theorem sameAt_wiped (h : shelf.Spares file cut) (hpath : file.path ≠ path) :
    SameAt path (shelf.wiped file cut) shelf := by
  have hcleared : SameAt path (shelf.dropDocuments [file.path]) shelf :=
    sameAt_dropWhere (by simpa using hpath.symm)
  refine (sameAt_dropChunks fun id hid record hrecord => ?_).trans hcleared
  rwa [h.dropDocuments [file.path] id hid record hrecord]

end Spares

section Written

variable (hids : indexer.SeparatesChunks files) (hfile : file ∈ files)
  (hcut : indexer.Cuts file cut)

include hids hfile hcut

/-- The chunks at the path of a written file: those of the file, and those that were not removed
before although they stood there. -/
theorem chunks_written_iff (now : Int) {id : String} {record : ChunkRecord} :
    ((shelf.written file cut now).chunks id = some record ∧ record.path = file.path) ↔
      (record ∈ file.recordsOf cut ∧ record.chunkId = id) ∨
        (id ∉ file.idsOf cut ∧ shelf.documents file.path = none ∧
          shelf.chunks id = some record ∧ record.path = file.path) := by
  have hadded : (shelf.written file cut now).chunks =
      ((shelf.dropDocuments [file.path]).addChunks (file.recordsOf cut)).chunks := rfl
  rw [hadded]
  constructor
  · rintro ⟨hrecord, hpath⟩
    obtain ⟨chunk, hchunk, hid, hplain⟩ | ⟨hid, hbefore⟩ := chunks_addChunks_cases hrecord
    · rw [SourceFile.plain_of_mem_recordsOf hchunk] at hplain
      subst hplain
      exact .inl ⟨hchunk, hid⟩
    · obtain ⟨hstored, hdropped⟩ := chunks_dropWhere_some.1 hbefore
      refine .inr ⟨hid, ?_, hstored, hpath⟩
      simpa [hpath] using hdropped
  · rintro (⟨hrecord, rfl⟩ | ⟨hid, hdocument, hstored, hpath⟩)
    · refine ⟨chunks_addChunks_of_mem _ (SourceFile.mem_idsOf hrecord) fun chunk hchunk hid => ?_,
        SourceFile.path_of_mem_recordsOf hrecord⟩
      rw [SourceFile.plain_of_mem_recordsOf hchunk]
      exact hids file hfile cut hcut chunk hchunk record hrecord hid
    · rw [chunks_addChunks_of_notMem _ hid, dropDocuments_of_none hdocument]
      exact ⟨hstored, hpath⟩

/-- Writing a file leaves the file alone at its path if nothing foreign to it can stay. -/
theorem holds_written (now : Int) (h : (shelf.documents file.path).isSome ∨
      ∀ id record, shelf.chunks id = some record → record.path = file.path → id ∈ file.idsOf cut) :
    (shelf.written file cut now).Holds indexer file := by
  refine ⟨⟨now, if_pos rfl⟩, cut, hcut, fun id record => ?_⟩
  rw [chunks_written_iff hids hfile hcut now, or_iff_left]
  rintro ⟨hid, hdocument, hstored, hpath⟩
  rcases h with h | h
  · simp [hdocument] at h
  · exact hid (h id record hstored hpath)

/-- This is also necessary if the file can be cut in one way only. -/
theorem holds_written_iff (honly : ∀ cut', indexer.Cuts file cut' → cut' = cut) (now : Int) :
    (shelf.written file cut now).Holds indexer file ↔ (shelf.documents file.path).isSome ∨
      ∀ id record, shelf.chunks id = some record → record.path = file.path →
        id ∈ file.idsOf cut := by
  refine ⟨fun h => ?_, holds_written hids hfile hcut now⟩
  obtain ⟨cut', hcut', hchunks⟩ := h.chunks
  obtain rfl := honly cut' hcut'
  by_cases hdocument : shelf.documents file.path = none
  · refine .inr fun id record hstored hpath => ?_
    by_contra hid
    have hleft := (chunks_written_iff hids hfile hcut now).2 (.inr ⟨hid, hdocument, hstored, hpath⟩)
    obtain ⟨hrecord, rfl⟩ := (hchunks id record).1 hleft
    exact hid (SourceFile.mem_idsOf hrecord)
  · exact .inl (Option.isSome_iff_ne_none.2 hdocument)

end Written

/-- Removing documents clears their paths, unless there are chunks without a document. -/
theorem vacant_dropWhere {drop : String → Bool} (hdrop : drop path = true)
    (h : (shelf.documents path).isSome ∨ shelf.Vacant path) :
    (shelf.dropWhere drop).Vacant path where
  document := by simp [dropWhere, hdrop]
  chunks id record hrecord := by
    obtain ⟨hstored, hdropped⟩ := chunks_dropWhere_some.1 hrecord
    rintro rfl
    rcases h with h | h
    · exact hdropped ⟨hdrop, h⟩
    · exact h.chunks id record hstored rfl

theorem vacant_dropDocuments (h : (shelf.documents path).isSome ∨ shelf.Vacant path) :
    (shelf.dropDocuments [path]).Vacant path :=
  vacant_dropWhere (by simp) h

theorem Vacant.dropChunks (h : shelf.Vacant path) (ids : List String) :
    (shelf.dropChunks ids).Vacant path where
  document := h.document
  chunks id record hrecord := h.chunks id record (chunks_dropChunks_some.1 hrecord).2

end Shelf

end CodeIndex
