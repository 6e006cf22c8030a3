import CodeIndex.Chunk.Basic
import CodeIndex.Symbol.Extract
import CodeIndex.Text.Lines

/-!
# Line windows

A file without structure is cut into windows of a fixed number of lines.  Each window starts a
fixed number of lines after the one before, so that two neighbours share `overlap` lines, and the
last window ends with the last line.

## Main definitions

* `WindowSize` holds the two numbers; `WindowSize.height` and `WindowSize.step` are what they
  amount to: a window has at least one line, and each window starts at least one line after the
  one before.
* `windowsFrom` walks over the lines and `windows` cuts a text.
-/

namespace CodeIndex

/-- Lines of a window, and lines that two neighbours share. -/
structure WindowSize where
  maxLines : Nat := 60
  overlap : Nat := 0
deriving DecidableEq, Repr

namespace WindowSize

/-- Lines of a window. -/
def height (size : WindowSize) : Nat := max size.maxLines 1

/-- Lines between the starts of two neighbours. -/
def step (size : WindowSize) : Nat := max (size.height - size.overlap) 1

/-- Windows always move on. -/
theorem step_pos (size : WindowSize) : 0 < size.step := by
  unfold step; omega

end WindowSize

namespace Chunk

/-- The window over some lines, the first of which has `before` lines before it. -/
def window (language : Language) (before : Nat) (lines : List (List Char)) : Chunk :=
  let text := lines.flatten
  { content := String.ofList text
    startLine := before + 1
    endLine := before + lines.length
    language
    nodeType := ""
    symbols := Symbol.extract text language }

/-- The windows over the remaining lines of a text, of which `before` lines are passed, put behind
the earlier ones, which `found` holds in reverse. -/
def windowsFrom (language : Language) (size : WindowSize) (before : Nat) (found : List Chunk)
    (lines : List (List Char)) : List Chunk :=
  let found := window language before (lines.take size.height) :: found
  match _h : lines.drop size.height with
  | [] => found.reverse
  | _ :: _ => windowsFrom language size (before + size.step) found (lines.drop size.step)
termination_by lines.length
decreasing_by
  have hlength := congrArg List.length _h
  have := size.step_pos
  simp only [List.length_drop, List.length_cons] at *
  omega

/-- The line windows of a text; the empty text has none. -/
def windows (language : Language) (size : WindowSize) (text : List Char) : List Chunk :=
  match Text.lines text with
  | [] => []
  | lines => windowsFrom language size 0 [] lines

end Chunk

end CodeIndex
