import Mathlib.Algebra.Order.Floor.Div
import CodeIndex.Chunk.Structural
import CodeIndex.Proofs.Text.LineList

/-!
# Line windows tile a text

The walk over the lines of a text stops with the first window that reaches the last line.  Its
answer has a closed form: the windows are those at the multiples of the step, and there are as many
as it takes for the last of them to reach the end.  From the closed form follows what readers of the
index rely on, that no line is lost and that the text can be put together again.

The walk is also made in machine words (`wordWindows?`), where a sum may not fit and a part of the
list of lines may not exist.  Neither happens for a text that fits into memory: only a text of
more lines than a window has is walked on, so no number gets greater than twice the number of lines.

## Main definitions

* `WindowSize.windowCount` is the number of windows over some lines.
* `WindowTiling` says what the windows of a text are.
* `Chunk.wordWindows?` is the walk in machine words.

## Main results

* `Chunk.windowsFrom_eq`: the closed form of the walk.
* `Chunk.wordWindows?_eq`: the walk in machine words goes through and has the same answer.
* `windows_tile_text`: the windows of a text tile it.
-/

namespace CodeIndex

/-! ### How many windows there are -/

namespace WindowSize

variable {size : WindowSize} {count i : Nat}

/-- Number of windows over some lines: the first one, and one more for each step that it takes to
pass the lines behind it. -/
def windowCount (size : WindowSize) (lines : Nat) : Nat :=
  1 + (lines - size.height) ⌈/⌉ size.step

theorem height_pos (size : WindowSize) : 0 < size.height := by
  unfold height
  omega

theorem step_le_height (size : WindowSize) : size.step ≤ size.height := by
  have := size.height_pos
  unfold step
  omega

theorem step_eq (size : WindowSize) :
    size.step = max 1 (size.height - min size.overlap size.height) := by
  unfold step
  omega

/-- A further window follows exactly if the window does not reach the last line. -/
theorem succ_lt_windowCount_iff :
    i + 1 < size.windowCount count ↔ i * size.step + size.height < count := by
  have hiff := ceilDiv_le_iff_le_mul (b := count - size.height) (c := i) size.step_pos
  have hcomm := Nat.mul_comm i size.step
  unfold windowCount
  omega

theorem windowCount_of_le (h : count ≤ size.height) : size.windowCount count = 1 := by
  rw [windowCount, Nat.sub_eq_zero_of_le h, zero_ceilDiv, Nat.add_zero]

/-- A step takes one window off the lines, if one window is not enough for them. -/
theorem windowCount_of_lt (h : size.height < count) :
    size.windowCount count = size.windowCount (count - size.step) + 1 := by
  have hpos := size.step_pos
  have hsub : count - size.step - size.height = count - size.height - size.step := by omega
  rw [windowCount, windowCount, hsub, Nat.ceilDiv_eq_add_pred_div, Nat.ceilDiv_eq_add_pred_div]
  rcases Nat.le_total (count - size.height) size.step with hle | hle
  · rw [Nat.sub_eq_zero_of_le hle, Nat.div_eq_of_lt (a := 0 + size.step - 1) (by omega),
      Nat.div_eq_of_lt_le (k := 1) (by omega) (by omega)]
  · have hsplit : count - size.height + size.step - 1 =
        (count - size.height - size.step + size.step - 1) + size.step := by omega
    rw [hsplit, Nat.add_div_right _ hpos]
    omega

/-- Every window starts before the last line ends. -/
theorem mul_step_lt (hcount : 0 < count) (h : i < size.windowCount count) :
    i * size.step < count := by
  cases i with
  | zero => simpa using hcount
  | succ i =>
    have hbefore := succ_lt_windowCount_iff.1 h
    have hstep := size.step_le_height
    rw [Nat.succ_mul]
    omega

end WindowSize

/-- Equal parts of a list, one behind the other, are the beginning of the list. -/
theorem flatMap_range_take {α : Type*} (xs : List α) (width count : Nat) :
    ((List.range count).flatMap fun i => (xs.drop (i * width)).take width) =
      xs.take (count * width) := by
  induction count with
  | zero => simp
  | succ count ih =>
    rw [List.range_succ, List.flatMap_append, ih, Nat.succ_mul, List.take_add]
    simp

/-! ### The closed form of the walk -/

namespace Chunk

variable {language : Language} {size : WindowSize} {text : List Char} {lines : List (List Char)}
  {found : List Chunk} {before : Nat}

/-- The window that starts behind a number of steps. -/
def windowAt (language : Language) (size : WindowSize) (lines : List (List Char)) (before i : Nat) :
    Chunk :=
  window language (before + i * size.step) ((lines.drop (i * size.step)).take size.height)

/-- The walk answers with the windows behind each number of steps. -/
theorem windowsFrom_eq : windowsFrom language size before found lines =
    found.reverse ++
      (List.range (size.windowCount lines.length)).map (windowAt language size lines before) := by
  fun_induction windowsFrom language size before found lines with
  | case1 before found lines found' hend =>
    have hle : lines.length ≤ size.height := List.drop_eq_nil_iff.1 hend
    rw [WindowSize.windowCount_of_le hle]
    simp [found', windowAt]
  | case2 before found lines found' line rest hmore ih =>
    have hlt : size.height < lines.length := by
      have hlength := congrArg List.length hmore
      rw [List.length_drop, List.length_cons] at hlength
      omega
    rw [ih, List.length_drop, WindowSize.windowCount_of_lt hlt, List.range_succ_eq_map,
      List.map_cons, List.map_map, List.reverse_cons, List.append_assoc, List.singleton_append]
    congr 2
    · simp [windowAt]
    · refine List.map_congr_left fun i _ => ?_
      have hsteps : (i + 1) * size.step = size.step + i * size.step := by
        rw [Nat.succ_mul, Nat.add_comm]
      simp only [windowAt, Function.comp_apply, hsteps, List.drop_drop, Nat.add_assoc]

theorem windows_eq (h : text ≠ []) : windows language size text =
    (List.range (size.windowCount (Text.lines text).length)).map
      (windowAt language size (Text.lines text) 0) := by
  unfold windows
  split
  · next hnone => exact absurd (Text.lines_eq_nil.1 hnone) h
  · simp [windowsFrom_eq]

/-! ### The walk in machine words -/

/-- The walk from a line on, in words of some bits.  It has no answer if a sum does not fit a word
or if the lines of a window are not a part of the list. -/
def wordWindowsFrom? (bits : Nat) (language : Language) (size : WindowSize)
    (lines : List (List Char)) (found : List Chunk) (start : Nat) : Option (List Chunk) :=
  let stop := min (start + size.height) lines.length
  if start + size.height < 2 ^ bits ∧ start + 1 < 2 ^ bits ∧ start ≤ stop ∧ stop ≤ lines.length then
    let found := window language start ((lines.take stop).drop start) :: found
    if stop = lines.length then some found.reverse
    else if start + size.step < 2 ^ bits then
      wordWindowsFrom? bits language size lines found (start + size.step)
    else none
  else none
termination_by lines.length - start
decreasing_by
  have := size.step_pos
  omega

/-- The line windows of a text, made in words of some bits. -/
def wordWindows? (bits : Nat) (language : Language) (size : WindowSize) (text : List Char) :
    Option (List Chunk) :=
  match Text.lines text with
  | [] => some []
  | lines => wordWindowsFrom? bits language size lines [] 0

/-- From any line that is reached the walk in words goes on as the walk over the lines does: either
this is the first window, or the lines are more than a window has. -/
theorem wordWindowsFrom?_eq {bits start : Nat} (hheight : size.height < 2 ^ bits)
    (hlines : 2 * lines.length ≤ 2 ^ bits) (hstart : start < lines.length)
    (hmore : start = 0 ∨ size.height < lines.length) :
    wordWindowsFrom? bits language size lines found start =
      some (windowsFrom language size start found (lines.drop start)) := by
  fun_induction wordWindowsFrom? bits language size lines found start with
  | case1 found start stop hfits found' hend =>
    have hnone : (lines.drop start).drop size.height = [] := by
      rw [List.drop_drop, List.drop_eq_nil_iff]
      omega
    have hpart : (lines.take stop).drop start = (lines.drop start).take size.height := by
      rw [List.drop_take, List.take_eq_take_iff, List.length_drop]
      omega
    rw [windowsFrom]
    split
    · rw [← hpart]
    · next hsome => simp [hnone] at hsome
  | case2 found start stop hfits found' hend hstep ih =>
    have hstep' := size.step_pos
    have hlt : start + size.height < lines.length := by omega
    have hpart : (lines.take stop).drop start = (lines.drop start).take size.height := by
      rw [List.drop_take, List.take_eq_take_iff, List.length_drop]
      omega
    have hle := size.step_le_height
    rw [ih (by omega) (.inr (by omega)), windowsFrom.eq_def language size start]
    split
    · next hnone =>
      rw [List.drop_drop, List.drop_eq_nil_iff] at hnone
      omega
    · rw [← hpart, List.drop_drop]
  | case3 found start stop hfits hend hstep =>
    have hle := size.step_le_height
    omega
  | case4 found start stop hfits =>
    have hpos := size.height_pos
    omega

/-- In words of some bits the walk goes through, if the size of the windows fits a word and the text
has less than `2 ^ (bits - 1)` bytes. -/
theorem wordWindows?_eq {bits : Nat} (hsize : size.maxLines < 2 ^ bits)
    (htext : Text.byteLength text < 2 ^ (bits - 1)) :
    wordWindows? bits language size text = some (windows language size text) := by
  have hlines := (Text.length_lines_le text).trans_lt htext
  cases hcut : Text.lines text with
  | nil => simp only [wordWindows?, windows, hcut]
  | cons line rest =>
    rw [hcut] at hlines
    have hpos : 0 < (line :: rest).length := List.length_pos_iff.2 (List.cons_ne_nil _ _)
    have hwords : 2 * 2 ^ (bits - 1) = 2 ^ bits := by
      cases bits with
      | zero => omega
      | succ bits => rw [Nat.add_sub_cancel, Nat.pow_succ, Nat.mul_comm]
    have hheight : size.height < 2 ^ bits := by
      unfold WindowSize.height
      omega
    have hwalk : wordWindowsFrom? bits language size (line :: rest) [] 0 =
        some (windowsFrom language size 0 [] (line :: rest)) :=
      wordWindowsFrom?_eq hheight (by omega) hpos (.inl rfl)
    simp only [wordWindows?, windows, hcut, hwalk]

/-! ### The text put together again -/

/-- The text of a chunk behind its first lines. -/
def behindLines (count : Nat) (chunk : Chunk) : List Char :=
  ((Text.lines chunk.content.toList).drop count).flatten

theorem toList_content_windowAt {i : Nat} :
    (windowAt language size lines before i).content.toList =
      ((lines.drop (i * size.step)).take size.height).flatten := by
  simp [windowAt, window]

/-- What a window has behind the lines that it shares with the one before. -/
theorem behindLines_windowAt (i : Nat) :
    (windowAt language size (Text.lines text) before (i + 1)).behindLines
        (size.height - size.step) =
      ((((Text.lines text).drop size.height).drop (i * size.step)).take size.step).flatten := by
  have hpart : (((Text.lines text).drop ((i + 1) * size.step)).take size.height) <:+:
      Text.lines text :=
    (List.take_prefix _ _).isInfix.trans (List.drop_suffix _ _).isInfix
  have hle := size.step_le_height
  have hbehind : (i + 1) * size.step + (size.height - size.step) =
      size.height + i * size.step := by
    rw [Nat.succ_mul]
    omega
  rw [behindLines, toList_content_windowAt, Text.lines_flatten_part hpart, List.drop_take,
    List.drop_drop, List.drop_drop, hbehind, Nat.sub_sub_self hle]

end Chunk

/-! ### The tiling -/

/-- The windows of a text: where they start and end, what they hold, and how the text is put
together from them. -/
structure WindowTiling (size : WindowSize) (text : List Char) (windows : List Chunk) : Prop where
  length : windows.length = 1 + ((Text.lines text).length - size.height) ⌈/⌉ size.step
  startLine : ∀ i window, windows[i]? = some window → window.startLine = i * size.step + 1
  endLine : ∀ i window, windows[i]? = some window →
    window.endLine = min (i * size.step + size.height) (Text.lines text).length
  /-- A window holds its lines with their terminators. -/
  content : ∀ window ∈ windows, window.content.toList =
    (((Text.lines text).take window.endLine).drop (window.startLine - 1)).flatten
  covered : ∀ line, 1 ≤ line → line ≤ (Text.lines text).length →
    ∃ window ∈ windows, window.startLine ≤ line ∧ line ≤ window.endLine
  increasing : windows.Pairwise fun window later => window.startLine < later.startLine
  /-- The last window reaches the last line, and no other does. -/
  reaches : ∀ i window, windows[i]? = some window →
    (window.endLine = (Text.lines text).length ↔ i + 1 = windows.length)
  /-- Without the lines that each shares with the one before, the windows are the text. -/
  rejoined : ∃ first later, windows = first :: later ∧
    first.content.toList ++ later.flatMap (Chunk.behindLines (size.height - size.step)) = text

namespace WindowTiling

open Chunk

variable {language : Language} {size : WindowSize} {text : List Char} {i : Nat} {window : Chunk}
  {all : List Chunk}

/-- The windows of the closed form. -/
def ofSteps (language : Language) (size : WindowSize) (text : List Char) : List Chunk :=
  (List.range (size.windowCount (Text.lines text).length)).map
    (windowAt language size (Text.lines text) 0)

theorem length_ofSteps : (ofSteps language size text).length =
    size.windowCount (Text.lines text).length := by
  simp [ofSteps]

theorem getElem?_ofSteps (h : (ofSteps language size text)[i]? = some window) :
    i < size.windowCount (Text.lines text).length ∧
      window = windowAt language size (Text.lines text) 0 i := by
  obtain ⟨hlt, rfl⟩ := List.getElem?_eq_some_iff.1 h
  exact ⟨length_ofSteps ▸ hlt, by simp [ofSteps]⟩

theorem startLine_windowAt :
    (windowAt language size (Text.lines text) 0 i).startLine = i * size.step + 1 := by
  simp [windowAt, Chunk.window]

theorem endLine_windowAt (htext : text ≠ [])
    (h : i < size.windowCount (Text.lines text).length) :
    (windowAt language size (Text.lines text) 0 i).endLine =
      min (i * size.step + size.height) (Text.lines text).length := by
  have hpos : 0 < (Text.lines text).length :=
    List.length_pos_iff.2 fun hnil => htext (Text.lines_eq_nil.1 hnil)
  have hstart := WindowSize.mul_step_lt hpos h
  simp only [windowAt, Chunk.window, List.length_take, List.length_drop]
  omega

theorem covered_ofSteps (htext : text ≠ []) {line : Nat} (hfirst : 1 ≤ line)
    (hlast : line ≤ (Text.lines text).length) :
    ∃ window ∈ ofSteps language size text, window.startLine ≤ line ∧ line ≤ window.endLine := by
  have hpos := size.step_pos
  have hheight := size.step_le_height
  have hdiv := Nat.div_add_mod (line - 1) size.step
  have hmod := Nat.mod_lt (line - 1) hpos
  have hcomm := Nat.mul_comm size.step ((line - 1) / size.step)
  have hmem : ∀ j, j < size.windowCount (Text.lines text).length →
      windowAt language size (Text.lines text) 0 j ∈ ofSteps language size text := fun j hj =>
    List.mem_map_of_mem (List.mem_range.2 hj)
  -- Either the last window before the line is one of the windows, or the last window of all.
  by_cases hwithin : (line - 1) / size.step < size.windowCount (Text.lines text).length
  · refine ⟨_, hmem _ hwithin, ?_⟩
    rw [startLine_windowAt, endLine_windowAt htext hwithin]
    omega
  · obtain ⟨last, hlastCount⟩ : ∃ last, size.windowCount (Text.lines text).length = last + 1 :=
      ⟨_, Nat.add_comm _ _⟩
    have hreach : ¬ last * size.step + size.height < (Text.lines text).length := by
      rw [← WindowSize.succ_lt_windowCount_iff]
      omega
    have hbefore : last * size.step ≤ (line - 1) / size.step * size.step :=
      Nat.mul_le_mul_right _ (by omega)
    have hlt : last < size.windowCount (Text.lines text).length := by omega
    refine ⟨_, hmem last hlt, ?_⟩
    rw [startLine_windowAt, endLine_windowAt htext hlt]
    omega

theorem rejoined_ofSteps : ∃ first later, ofSteps language size text = first :: later ∧
    first.content.toList ++ later.flatMap (behindLines (size.height - size.step)) = text := by
  obtain ⟨count, hcount⟩ : ∃ count, size.windowCount (Text.lines text).length = count + 1 :=
    ⟨_, Nat.add_comm _ _⟩
  have henough : ((Text.lines text).drop size.height).length ≤ count * size.step := by
    have hreach : ¬ count * size.step + size.height < (Text.lines text).length := by
      rw [← WindowSize.succ_lt_windowCount_iff]
      omega
    rw [List.length_drop]
    omega
  refine ⟨_, _, by rw [ofSteps, hcount, List.range_succ_eq_map, List.map_cons], ?_⟩
  calc (windowAt language size (Text.lines text) 0 0).content.toList ++
        (((List.range count).map Nat.succ).map (windowAt language size (Text.lines text) 0)).flatMap
          (behindLines (size.height - size.step))
      = ((Text.lines text).take size.height).flatten ++ ((List.range count).flatMap fun i =>
          (((Text.lines text).drop size.height).drop (i * size.step)).take size.step).flatten := by
        rw [toList_content_windowAt, Nat.zero_mul, List.drop_zero, List.flatMap_map,
          List.flatMap_map, List.flatMap_def, List.flatMap_def, List.flatten_flatten, List.map_map]
        congr 2
        exact List.map_congr_left fun i _ => behindLines_windowAt i
    _ = ((Text.lines text).take size.height).flatten ++
          ((Text.lines text).drop size.height).flatten := by
        rw [flatMap_range_take, List.take_of_length_le henough]
    _ = text := by
        rw [← List.flatten_append, List.take_append_drop, Text.lines_flatten]

/-- The windows of the closed form tile the text. -/
theorem ofSteps_tiling (htext : text ≠ []) :
    WindowTiling size text (ofSteps language size text) where
  length := length_ofSteps
  startLine i window h := by
    obtain ⟨-, rfl⟩ := getElem?_ofSteps h
    exact startLine_windowAt
  endLine i window h := by
    obtain ⟨hlt, rfl⟩ := getElem?_ofSteps h
    exact endLine_windowAt htext hlt
  content window h := by
    obtain ⟨i, hi⟩ := List.getElem?_of_mem h
    obtain ⟨hlt, rfl⟩ := getElem?_ofSteps hi
    rw [toList_content_windowAt, startLine_windowAt, endLine_windowAt htext hlt,
      Nat.add_sub_cancel, List.drop_take]
    congr 1
    rw [List.take_eq_take_iff, List.length_drop]
    omega
  covered line hfirst hlast := covered_ofSteps htext hfirst hlast
  increasing := by
    rw [ofSteps, List.pairwise_map]
    refine List.pairwise_lt_range.imp fun {i j} hij => ?_
    have hsteps := Nat.mul_lt_mul_of_pos_right hij size.step_pos
    rw [startLine_windowAt, startLine_windowAt]
    omega
  reaches i window h := by
    obtain ⟨hlt, rfl⟩ := getElem?_ofSteps h
    have hmore : i + 1 < size.windowCount (Text.lines text).length ↔
        i * size.step + size.height < (Text.lines text).length :=
      WindowSize.succ_lt_windowCount_iff
    rw [endLine_windowAt htext hlt, length_ofSteps]
    omega
  rejoined := rejoined_ofSteps

/-- The last window ends with the last line. -/
theorem endLine_getLast (h : WindowTiling size text all) (hlast : all.getLast? = some window) :
    window.endLine = (Text.lines text).length := by
  rw [List.getLast?_eq_getElem?] at hlast
  have hlt := (List.getElem?_eq_some_iff.1 hlast).1
  exact (h.reaches _ window hlast).2 (by omega)

end WindowTiling

/-- The windows of a text that is not empty tile its lines, whatever their size.  The last of them
ends with the last line, as the node of the whole file does.  A machine with words of some bits, in
whose memory a text takes less than `2 ^ (bits - 1)` bytes, makes these windows without a sum that
does not fit a word and without a part of the lines that does not exist. -/
theorem windows_tile_text {text : List Char} (htext : text ≠ []) (language : Language)
    (size : WindowSize) :
    Text.IsLineList (Text.lines text) ∧ (Text.lines text).flatten = text ∧
    size.height = max 1 size.maxLines ∧
    size.step = max 1 (size.height - min size.overlap size.height) ∧
    WindowTiling size text (Chunk.windows language size text) ∧
    (∃ last, (Chunk.windows language size text).getLast? = some last ∧
      last.endLine = Text.lineCount text ∧
      ∀ token tree token', TreeParser.wholeFile.parse text language token = (.ok tree, token') →
        tree.endLine = last.endLine) ∧
    ∀ bits, size.maxLines < 2 ^ bits → size.overlap < 2 ^ bits →
      Text.byteLength text < 2 ^ (bits - 1) →
      Chunk.wordWindows? bits language size text = some (Chunk.windows language size text) := by
  have htiling : WindowTiling size text (Chunk.windows language size text) := by
    rw [Chunk.windows_eq htext]
    exact WindowTiling.ofSteps_tiling htext
  refine ⟨Text.isLineList_lines text, Text.lines_flatten text, max_comm _ _, size.step_eq, htiling,
    ?_, fun bits hsize _ hbytes => Chunk.wordWindows?_eq hsize hbytes⟩
  obtain ⟨first, later, hwindows, -⟩ := htiling.rejoined
  have hne : Chunk.windows language size text ≠ [] := by
    rw [hwindows]
    exact List.cons_ne_nil _ _
  have hlast := List.getLast?_eq_some_getLast hne
  have hpos : 0 < (Text.lines text).length :=
    List.length_pos_iff.2 fun hnil => htext (Text.lines_eq_nil.1 hnil)
  have hline : ((Chunk.windows language size text).getLast hne).endLine = Text.lineCount text := by
    rw [htiling.endLine_getLast hlast, Text.lineCount, max_eq_right hpos]
  refine ⟨_, hlast, hline, fun token tree token' hparse => ?_⟩
  unfold TreeParser.wholeFile at hparse
  dsimp only at hparse
  split at hparse
  · cases hparse
  · obtain rfl := Except.ok.inj (Prod.mk.inj hparse).1
    exact hline.symm

/-- Five lines, the last without its newline, in windows of three lines of which two are shared. -/
def windowSample : List Char := "a\nb\n\nd\né".toList

theorem windows_tile_sample :
    windowSample ≠ [] ∧
    WindowTiling ⟨3, 2⟩ windowSample (Chunk.windows .unknown ⟨3, 2⟩ windowSample) ∧
    3 < 2 ^ 64 ∧ 2 < 2 ^ 64 ∧ Text.byteLength windowSample < 2 ^ (64 - 1) ∧
    Chunk.wordWindows? 64 .unknown ⟨3, 2⟩ windowSample =
      some (Chunk.windows .unknown ⟨3, 2⟩ windowSample) := by
  have hne : windowSample ≠ [] := by decide
  have hbytes : Text.byteLength windowSample < 2 ^ (64 - 1) := by decide
  obtain ⟨-, -, -, -, htiling, -, hwords⟩ := windows_tile_text hne .unknown ⟨3, 2⟩
  exact ⟨hne, htiling, by decide, by decide, hbytes,
    hwords 64 (by decide) (by decide) hbytes⟩

end CodeIndex
