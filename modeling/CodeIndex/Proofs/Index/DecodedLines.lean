import CodeIndex.Grammar.Parser
import CodeIndex.Proofs.Chunk.Windows
import CodeIndex.Proofs.Index.Lifecycle
import CodeIndex.Proofs.Text.Decoding

/-!
# Lines of files that are not UTF-8

The index cuts a decoded text, and the line numbers of its chunks count the lines of that text.
They are line numbers of the file because decoding keeps the lines: the text has one line for each
line of octets, and it is the decoded text of that line alone.

## Main definitions

* `SourceFile.DecodesByLine` says so of a file.
* `ChunkRecord.IsWindowOf` says that a chunk holds the lines of a file that its numbers name.

## Main results

* `SourceFile.decodesByLine`: every file is decoded line by line.
* `decoding_keeps_lines`: the windows that are stored for files which are not UTF-8 have the line
  numbers of these files.
-/

namespace CodeIndex

open Indexing ScriptedStore
open IgnoreRule (octetLines)
open Text.Utf8 (lossy strict?)

/-- The text of a line in a file that is not UTF-8. -/
def lossyLine (line : List UInt8) : List Char :=
  Text.replaceChar '\x00' Text.Utf8.replacement (lossy line)

namespace SourceFile

/-- The text that a file is cut as has one line for each line of the file: the text of that line
alone. -/
structure DecodesByLine (file : SourceFile) : Prop where
  length : (Text.lines (decodeSource file).1).length = (octetLines file.content).length
  wellFormed : (strict? file.content).isSome →
    ∀ (i : Nat) (line : List UInt8), (octetLines file.content)[i]? = some line →
      ∃ text, strict? line = some text ∧ (Text.lines (decodeSource file).1)[i]? = some text
  malformed : strict? file.content = none →
    ∀ (i : Nat) (line : List UInt8), (octetLines file.content)[i]? = some line →
      (Text.lines (decodeSource file).1)[i]? = some (lossyLine line)

variable {file : SourceFile}

theorem strict?_eq_none_iff {octets : List UInt8} :
    strict? octets = none ↔ (Text.Utf8.decode octets).malformed = true := by
  unfold strict?
  dsimp only
  split <;> simp [*]

theorem strict?_of_wellFormed {octets : List UInt8}
    (h : (Text.Utf8.decode octets).malformed = false) : strict? octets = some (lossy octets) := by
  simp [strict?, lossy, h]

theorem decodeSource_of_malformed (h : strict? file.content = none) : decodeSource file =
    (Text.replaceChar '\x00' Text.Utf8.replacement (lossy file.content), .unknown) := by
  simp [decodeSource, strict?_eq_none_iff.1 h, lossy]

theorem lines_of_malformed (h : strict? file.content = none) :
    Text.lines (decodeSource file).1 = (octetLines file.content).map lossyLine := by
  rw [decodeSource_of_malformed h, Text.lines_replaceChar (by decide) (by decide), lossy,
    Text.Utf8.lines_decode, List.map_map]
  rfl

theorem lines_of_wellFormed (h : (strict? file.content).isSome) :
    Text.lines (decodeSource file).1 = (octetLines file.content).map lossy := by
  have hmalformed : (Text.Utf8.decode file.content).malformed = false :=
    Bool.eq_false_iff.2 fun h' => by simp [strict?_eq_none_iff.2 h'] at h
  simp only [decodeSource, hmalformed, Bool.false_eq_true, if_false]
  exact Text.Utf8.lines_decode file.content

/-- Every file is decoded line by line. -/
theorem decodesByLine (file : SourceFile) : file.DecodesByLine where
  length := by
    by_cases h : strict? file.content = none
    · rw [lines_of_malformed h, List.length_map]
    · rw [lines_of_wellFormed (Option.isSome_iff_ne_none.2 h), List.length_map]
  wellFormed h i line hline := by
    have hmalformed : (Text.Utf8.decode line).malformed = false := by
      have hall : (Text.Utf8.decode file.content).malformed = false :=
        Bool.eq_false_iff.2 fun h' => by simp [strict?_eq_none_iff.2 h'] at h
      rw [Text.Utf8.malformed_decode, List.any_eq_false] at hall
      exact Bool.eq_false_iff.2 (hall line (List.mem_of_getElem? hline))
    refine ⟨lossy line, strict?_of_wellFormed hmalformed, ?_⟩
    rw [lines_of_wellFormed h, List.getElem?_map, hline]
    rfl
  malformed h i line hline := by
    rw [lines_of_malformed h, List.getElem?_map, hline]
    rfl

end SourceFile

/-- A chunk holds lines of a file that is not UTF-8, and these are the lines that its numbers
name. -/
structure ChunkRecord.IsWindowOf (record : ChunkRecord) (file : SourceFile) : Prop where
  first : 1 ≤ record.startLine
  ordered : record.startLine ≤ record.endLine
  last : record.endLine ≤ (octetLines file.content).length
  content : record.content.toList =
    (((octetLines file.content).take record.endLine).drop (record.startLine - 1)).flatMap lossyLine

/-- The numbers of a window are those of the first and the last of its lines. -/
theorem Chunk.window_of_mem_windows {language : Language} {size : WindowSize} {text : List Char}
    {window : Chunk} (h : window ∈ windows language size text) :
    1 ≤ window.startLine ∧ window.startLine ≤ window.endLine ∧
      window.endLine ≤ (Text.lines text).length ∧ window.content.toList =
        (((Text.lines text).take window.endLine).drop (window.startLine - 1)).flatten := by
  have htext : text ≠ [] := by
    rintro rfl
    simp [windows] at h
  have htiling : WindowTiling size text (windows language size text) := by
    rw [windows_eq htext]
    exact WindowTiling.ofSteps_tiling htext
  have hcontent := htiling.content window h
  rw [windows_eq htext] at h
  obtain ⟨i, hi, rfl⟩ := List.mem_map.1 h
  have hcount := List.mem_range.1 hi
  have hpos : 0 < (Text.lines text).length :=
    List.length_pos_iff.2 fun hnil => htext (Text.lines_eq_nil.1 hnil)
  have hstart := WindowSize.mul_step_lt hpos hcount
  have hheight := size.height_pos
  have hfirst : (windowAt language size (Text.lines text) 0 i).startLine = i * size.step + 1 :=
    WindowTiling.startLine_windowAt
  have hlast : (windowAt language size (Text.lines text) 0 i).endLine =
      min (i * size.step + size.height) (Text.lines text).length :=
    WindowTiling.endLine_windowAt htext hcount
  exact ⟨by omega, by omega, by omega, hcontent⟩

/-- A text that is not parsed has no structural chunks. -/
theorem Chunker.structural_of_unparsed {chunker : Chunker} {source : List Char}
    {language : Language} {token : Cancellation} {found : List Chunk}
    (hparser : chunker.parser.supports language = false)
    (hkinds : chunker.kinds.selects language TreeParser.fileKind = false)
    (h : (chunker.structural source language token).1 = .ok found) : found = [] := by
  unfold structural treeOf at h
  rw [hparser] at h
  split at h
  · cases h
  · next tree token₁ htree =>
    have hnode : TreeParser.fileNode source = tree := by
      rw [if_neg Bool.false_ne_true] at htree
      unfold TreeParser.wholeFile at htree
      dsimp only at htree
      split at htree
      · cases htree
      · exact Except.ok.inj (Prod.mk.inj htree).1
    have hspans : (spansFrom chunker.kinds language [] [tree] .never).1 = .ok [] := by
      subst hnode
      rw [spansFrom, Cancellation.poll_never]
      simp [TreeParser.fileNode, hkinds, spansFrom]
    split at h
    · cases h
    · next spans token₂ hwalk =>
      obtain rfl := spansFrom_unique (congrArg Prod.fst hwalk) hspans
      exact (Except.ok.inj h).symm

/-- A file that is not parsed is cut into windows. -/
theorem Indexer.Cuts.eq_windows {indexer : Indexer} {file : SourceFile} {cut : List Chunk}
    (h : indexer.Cuts file cut)
    (hparser : indexer.chunker.parser.supports (decodeSource file).2 = false)
    (hkinds : indexer.chunker.kinds.selects (decodeSource file).2 TreeParser.fileKind = false) :
    cut = Chunk.windows (decodeSource file).2 indexer.options.window (decodeSource file).1 := by
  obtain ⟨token, hcut⟩ := h
  obtain ⟨found, hfound, rfl⟩ := Chunker.chunks_ok hcut
  rw [if_pos (Chunker.structural_of_unparsed hparser hkinds hfound)]

/-- The windows of a file that is not UTF-8 have its line numbers. -/
theorem SourceFile.isWindowOf_of_mem {file : SourceFile} {size : WindowSize} {record : ChunkRecord}
    (hfile : strict? file.content = none)
    (h : record ∈ file.recordsOf (Chunk.windows .unknown size (decodeSource file).1)) :
    record.IsWindowOf file := by
  obtain ⟨window, hwindow, rfl⟩ := List.mem_map.1 h
  obtain ⟨hfirst, hordered, hlast, hcontent⟩ := Chunk.window_of_mem_windows hwindow
  rw [lines_of_malformed hfile] at hlast hcontent
  rw [List.length_map] at hlast
  refine ⟨hfirst, hordered, hlast, ?_⟩
  rw [List.flatMap_def, List.map_drop, List.map_take]
  exact hcontent

/-- Every chunk that is stored after a history was cut from a file of the history. -/
theorem sourced_history (indexer : Indexer) {kind : BackendKind} (hkind : kind ≠ .vector)
    (script : FaultScript) (calls : List IndexCall) {name : String} {shelf : Shelf}
    (h : held (history indexer calls (freshState kind script)).2.store.store name = some shelf) :
    shelf.Sourced indexer (calls.flatMap (·.operation.files)) := by
  obtain ⟨laws, hvalid, -, hempty⟩ := Backend.exists_lawful hkind
  have hfiles : ∀ call ∈ calls, call.operation.files ⊆ calls.flatMap (·.operation.files) :=
    fun call hcall file hfile => List.mem_flatMap.2 ⟨call, hcall, hfile⟩
  obtain ⟨-, -, hsourced⟩ := history_preserves indexer calls
    (freshState kind script) (P := fun shelf => shelf.Sourced indexer _) hvalid
    Shelf.sourced_empty (fun shelf drop h => h.dropWhere drop)
    (fun call hcall _ _ _ _ _ hbatch => hbatch.sourced (hfiles call hcall))
    (fun name shelf hshelf => by
      have hnone : held (freshState kind script).store.store name = none := congrFun hempty name
      rw [hnone] at hshelf
      cases hshelf)
  exact hsourced name shelf h

/-- Every file is decoded line by line.  Whatever is done with a store, and whatever calls fail, a
window that stands in it for a file which is not UTF-8 has the line numbers of that file; such a
file is cut into windows unless a parser claims to know it. -/
theorem decoding_keeps_lines :
    (∀ file : SourceFile, file.DecodesByLine) ∧
    ∀ (indexer : Indexer) {kind : BackendKind}, kind ≠ .vector →
      ∀ (script : FaultScript) (calls : List IndexCall) {name : String} {shelf : Shelf},
      held (history indexer calls (freshState kind script)).2.store.store name = some shelf →
      ∀ {id : String} {record : ChunkRecord}, shelf.chunks id = some record →
      ∃ file ∈ calls.flatMap (·.operation.files), ∃ cut, indexer.Cuts file cut ∧
        record ∈ file.recordsOf cut ∧
        (strict? file.content = none →
          (cut = Chunk.windows .unknown indexer.options.window (decodeSource file).1 →
            record.IsWindowOf file) ∧
          (indexer.chunker.parser.supports .unknown = false →
            indexer.chunker.kinds.selects .unknown TreeParser.fileKind = false →
            cut = Chunk.windows .unknown indexer.options.window (decodeSource file).1)) := by
  refine ⟨SourceFile.decodesByLine, ?_⟩
  intro indexer kind hkind script calls name shelf hheld id record hrecord
  obtain ⟨-, file, hfile, cut, hcut, hmem⟩ :=
    (sourced_history indexer hkind script calls hheld).chunks id record hrecord
  refine ⟨file, hfile, cut, hcut, hmem, fun hmalformed => ⟨?_, fun hparser hkinds => ?_⟩⟩
  · rintro rfl
    exact SourceFile.isWindowOf_of_mem hmalformed hmem
  · have hlanguage : (decodeSource file).2 = .unknown := by
      rw [SourceFile.decodeSource_of_malformed hmalformed]
    have hwindows := hcut.eq_windows (by rwa [hlanguage]) (by rwa [hlanguage])
    rwa [hlanguage] at hwindows

/-- Three lines: a sequence that breaks off at the line end, a NUL character, and an octet that
stands in no UTF-8. -/
def brokenSample : SourceFile := ⟨"a.bin", [0x61, 0xE2, 0x82, 0x0A, 0x00, 0x0A, 0xFF]⟩

/-- An indexer that knows the grammars, and makes a window of every line elsewhere. -/
def lineByLine : Indexer where
  chunker := ⟨Grammar.parser, .standard⟩
  options := { window := ⟨1, 0⟩ }

/-- A history that brings the file into a store. -/
def brokenCalls : List IndexCall :=
  [{ operation := .createStore "s" }, { operation := .addFiles "s" false [brokenSample] }]

theorem decoding_keeps_lines_broken :
    BackendKind.memory ≠ .vector ∧ strict? brokenSample.content = none ∧
    ∃ shelf record,
      held (history lineByLine brokenCalls (freshState .memory allPass)).2.store.store "s" =
        some shelf ∧
      shelf.chunks (chunkId "a.bin" 2 2) = some record ∧ record.IsWindowOf brokenSample ∧
      (record.startLine, record.endLine, record.content) = (2, 2, "\uFFFD\n") := by
  have hmalformed : strict? brokenSample.content = none := by decide +kernel
  have hthere : (held (history lineByLine brokenCalls (freshState .memory allPass)).2.store.store
      "s").isSome := by decide +kernel
  have hchunk : (chunkAt (history lineByLine brokenCalls
      (freshState .memory allPass)).2.store.store "s" (chunkId "a.bin" 2 2)).map
      (fun record => (record.startLine, record.endLine, record.content)) =
        some (2, 2, "\uFFFD\n") := by decide +kernel
  obtain ⟨shelf, hshelf⟩ := Option.isSome_iff_exists.1 hthere
  obtain ⟨record, hrecord, hfields⟩ := Option.map_eq_some_iff.1 hchunk
  have hstored : shelf.chunks (chunkId "a.bin" 2 2) = some record := by
    rw [eq_of_held_eq_some hshelf]
    exact hrecord
  obtain ⟨file, hfile, cut, -, -, hwindow⟩ :=
    decoding_keeps_lines.2 lineByLine (by decide) allPass brokenCalls hshelf hstored
  obtain rfl : file = brokenSample := by simpa [brokenCalls, Operation.files] using hfile
  obtain ⟨hlines, hwindows⟩ := hwindow hmalformed
  exact ⟨by decide, hmalformed, shelf, record, hshelf, hstored,
    hlines (hwindows (by decide) (by decide)), hfields⟩

end CodeIndex
