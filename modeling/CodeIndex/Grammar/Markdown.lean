import CodeIndex.Grammar.Combinators
import CodeIndex.Grammar.Machine

/-!
# The grammar of Markdown

A source is a sequence of sections.  A section starts with a heading, of which there are six levels,
and holds everything up to the next heading of its level or of a lower one, sections of higher
levels included.  Nothing stands between tokens: blanks and line ends are tokens, so a block ends
with the last of its lines.

## Main definitions

* `block` is a block that is no section and `section` a section of a level.
* `grammar` is the grammar.
-/

namespace CodeIndex.Grammar.Markdown

open Pattern

/-- The patterns that occur inside each other. -/
inductive Rule where
  | section (level : Nat)
  | block

/-- The greatest level of a heading. -/
def levels : Nat := 6

/-! ## Lines -/

/-- Blanks within a line. -/
def blanks : Scan := .run fun c => c == ' ' || c == '\t'

/-- The line end, or nothing at the end of the text. -/
def lineEndScan : Scan
  | [] => some 0
  | '\n' :: _ => some 1
  | '\r' :: '\n' :: _ => some 2
  | _ => none

/-- The end of a line. -/
def lineEnd : Pattern Rule := .token none false lineEndScan

/-- A text of the line, up to the blanks at its end. -/
def lineText : Scan := fun text =>
  let line := text.takeWhile fun c => c != '\n' && c != '\r'
  match (line.reverse.dropWhile fun c => c == ' ' || c == '\t').length with
  | 0 => none
  | length => some length

/-- A line with blanks only. -/
def blankLine : Pattern Rule := .token none false (.alt [
  .seq [blanks, .text "\n"], .seq [blanks, .text "\r\n"], .seq [.one fun c => c == ' ' || c == '\t',
    blanks, fun text => if text.isEmpty then some 0 else none]])

/-- The sign of a heading of some level. -/
def headingMark (level : Nat) : Scan :=
  .notBefore (.text (String.ofList (List.replicate level '#')))
    (.one fun c => !" \t\r\n".contains c)

/-- The fence before and behind a block of code. -/
def fence : Scan := .alt [.seq [.text "\x60\x60\x60", .run (· == '\x60')],
  .seq [.text "~~~", .run (· == '~')]]

/-- A line across the page. -/
def rule : Scan :=
  let signs (c : Char) : Scan :=
    let one : Scan := .seq [.one (· == c), blanks]
    .seq [one, one, one, .many one, fun text => (lineEndScan text).map fun _ => 0]
  .alt [signs '-', signs '*', signs '_']

/-- The kinds of list items with their signs. -/
def listMarks : List (String × Scan) :=
  let mark (scan : Scan) : Scan := .seq [scan, .alt [
    .run1 fun c => c == ' ' || c == '\t', fun text => (lineEndScan text).map fun _ => 0]]
  let number (sign : String) : Scan := mark (.seq [.run1 Char.isDigit, .text sign])
  [("list_marker_minus", mark (.text "-")), ("list_marker_plus", mark (.text "+")),
    ("list_marker_star", mark (.text "*")), ("list_marker_dot", number "."),
    ("list_marker_parenthesis", number ")")]

/-- What ends a paragraph at the start of a line. -/
def interrupts : Scan := .seq [blanks, .alt ([
  fence, rule, .text ">"] ++ (listMarks.map fun entry => entry.2) ++
  (List.range levels).map fun level => headingMark (level + 1))]

/-! ## Blocks -/

/-- The text of a paragraph. -/
def inline : Pattern Rule :=
  let underline : Scan := .seq [
    .alt [.run1 (· == '='), .run1 (· == '-')], blanks,
    fun text => (lineEndScan text).map fun _ => 0]
  let line : Pattern Rule := .token none false lineText
  let more : Pattern Rule := .seq [
    .token none false (.seq [blanks, .alt [.text "\n", .text "\r\n"]]),
    .absent (.token none false (.alt [interrupts, underline])),
    opt (.token none false (.run1 fun c => c == ' ' || c == '\t')),
    line]
  .node "inline" (.seq [line, .many more])

/-- Lines of text. -/
def paragraph : Pattern Rule :=
  nodeOf "paragraph" [
    opt (.token none false (.run1 fun c => c == ' ' || c == '\t')), inline,
    .token none false (.seq [blanks, lineEndScan])]

/-- Lines of code between fences. -/
def fencedCode : Pattern Rule :=
  let delimiter : Pattern Rule := leaf "fenced_code_block_delimiter" fence
  let closing : Pattern Rule := .seq [.token none false blanks, delimiter]
  let line : Pattern Rule := .seq [
    .absent closing, .token none false (.alt [
      .seq [.run (· != '\n'), .text "\n"], .run1 (· != '\n')])]
  nodeOf "fenced_code_block" [
    delimiter, .token none false blanks,
    opt (nodeOf "info_string" [
      leaf "language" (.run1 fun c => !" \t\r\n\x7b\x7d".contains c),
      opt (.token none false lineText)]),
    lineEnd,
    opt (.node "code_fence_content" (many1 line)),
    opt (.seq [closing, .token none false (.seq [blanks, lineEndScan])])]

/-- The items of a list, which start with the same sign. -/
def list : Pattern Rule :=
  .alt (listMarks.map fun (kind, mark) =>
    .node "list" (many1 (nodeOf "list_item" [
      opt (.token none false (.run1 fun c => c == ' ' || c == '\t')),
      leaf kind mark, .alt [paragraph, lineEnd],
      .many (.alt [blankLine, .seq [
        .ahead (.token none false (.seq [.text "  ", blanks, .butNot (.one fun _ => true)
          (.alt (listMarks.map fun entry => entry.2))])),
        paragraph]])])))

/-- A heading of some level, with or without signs before it. -/
def heading (level : Nat) : Pattern Rule :=
  let marked := nodeOf "atx_heading" [
    leaf (String.ofList ("atx_h".toList ++ (Nat.toDigits 10 level) ++ "_marker".toList))
      (headingMark level),
    .token none false blanks,
    opt (leaf "inline" lineText),
    .token none false (.seq [blanks, lineEndScan])]
  let underlined (kind : String) (sign : Char) : Pattern Rule :=
    nodeOf "setext_heading" [
      .absent (.token none false interrupts), paragraph,
      leaf kind (.seq [.run1 (· == sign)]), .token none false (.seq [blanks, lineEndScan])]
  match level with
  | 1 => .alt [marked, underlined "setext_h1_underline" '=']
  | 2 => .alt [marked, underlined "setext_h2_underline" '-']
  | _ => marked

/-- The start of a section of some level or a higher one. -/
def headingFrom (level : Nat) : Pattern Rule :=
  .alt ((List.range levels).filterMap fun before =>
    if level ≤ before + 1 then some (heading (before + 1)) else none)

/-- A block that is no section. -/
def block : Pattern Rule := .seq [.absent (headingFrom 1), .alt [
  blankLine,
  fencedCode,
  nodeOf "thematic_break" [.token none false (.seq [blanks, rule]), lineEnd],
  list,
  .node "block_quote" (many1 (.seq [
    leaf "block_quote_marker" (.seq [.text ">", .opt (.text " ")]), .alt [paragraph, lineEnd]])),
  .node "html_block" (.seq [
    .ahead (.token none false (.seq [.text "<", .one fun c => c.isAlpha || c == '/' || c == '!'])),
    many1 (.token none false (.seq [
      lineText, blanks, .alt [.text "\n", .text "\r\n", .lineEnd]]))]),
  paragraph]]

/-- A section of some level, with the sections of higher levels in it. -/
def sectionOf (level : Nat) : Pattern Rule :=
  nodeOf "section" [
    heading level,
    .many (.alt (.rule .block :: (List.range levels).filterMap fun before =>
      if level < before + 1 then some (.rule (.section (before + 1))) else none))]

/-- The grammar of Markdown. -/
def grammar : Grammar Rule where
  root := "document"
  item := .alt (.node "section" (many1 (.rule .block)) ::
    (List.range levels).map fun before => .rule (.section (before + 1)))
  rules
    | .section level => sectionOf level
    | .block => block
  extras := { blank := fun _ => none }

end CodeIndex.Grammar.Markdown
