import CodeIndex.Files.Glob
import CodeIndex.Files.Tree
import CodeIndex.Text.Lines
import CodeIndex.Text.WordCharacter

/-!
# Ignore files

A directory can say which of the entries below it are not part of the project: in a file `.ignore`,
and, in a directory that is under version control, in `.gitignore` and in a file of the version
control itself.  Each line is a rule that ignores or, with an exclamation mark, keeps what its
pattern matches, and the last rule that matches an entry decides.

## Main definitions

* `IgnoreRule.ofLine?` reads a line and `IgnoreRule.verdict` applies the rules of a file.
* `Level` are the rules of one directory.
* `Levels.isHidden` decides about an entry from the rules of its directory and all directories
  above: the nearest directory that says anything decides, `.ignore` files before the others, and
  the others only up to the directory that the version control starts at.
-/

namespace CodeIndex

/-- What a rule does to an entry. -/
inductive Verdict where
  | ignored
  | kept
deriving DecidableEq, Repr

/-- A line of an ignore file. -/
structure IgnoreRule where
  glob : Glob
  verdict : Verdict
  /-- Whether the rule is about directories only. -/
  onlyDirectories : Bool

namespace IgnoreRule

/-- A line without the blanks at its end, unless the last one is escaped. -/
def trimLine (line : List Char) : List Char :=
  match line.reverse with
  | ' ' :: '\\' :: _ => line
  | reversed => (reversed.dropWhile Text.isBlank).reverse

/-- Take the mark of a rule that keeps off the front of a line. -/
def takeVerdict : List Char → Verdict × List Char
  | '\\' :: '!' :: rest => (.ignored, '!' :: rest)
  | '\\' :: '#' :: rest => (.ignored, '#' :: rest)
  | '!' :: rest => (.kept, rest)
  | line => (.ignored, line)

/-- Take the slash at the end of a line off; the second answer says whether there was one. -/
def takeDirectoryMark (line : List Char) : List Char × Bool :=
  match line.reverse with
  | '/' :: '\\' :: rest => (rest.reverse, true)
  | '/' :: rest => (rest.reverse, true)
  | _ => (line, false)

/-- The pattern for whole paths: without a slash it matches at any depth, and one that ends in any
number of steps needs at least one. -/
def anchored (absolute : Bool) (text : List Char) : List Char :=
  let anywhere := "**/".toList
  let text :=
    if absolute ∨ text.contains '/' ∨ text = ['*', '*'] then text else anywhere ++ text
  if "/**".toList.isSuffixOf text then text ++ "/*".toList else text

/-- Read a line; comments and blank lines are no rules. -/
def ofLine? (line : List Char) : Option IgnoreRule :=
  if line.head? = some '#' then none
  else
    let line := trimLine line
    if line.isEmpty then none
    else
      let (verdict, line) := takeVerdict line
      let absolute := line.head? = some '/'
      let (line, onlyDirectories) := takeDirectoryMark (if absolute then line.drop 1 else line)
      (Glob.ofText? (anchored absolute line)).map fun glob => ⟨glob, verdict, onlyDirectories⟩

/-- A line without its end. -/
def withoutEnd (line : List UInt8) : List UInt8 :=
  match line.reverse with
  | 0x0A :: 0x0D :: rest => rest.reverse
  | 0x0A :: rest => rest.reverse
  | _ => line

/-- Split octets behind each line end. -/
def octetLines (octets : List UInt8) : List (List UInt8) :=
  octets.foldr (fun b lines =>
    match lines with
    | [] => [[b]]
    | line :: rest => if b = 0x0A then [b] :: line :: rest else (b :: line) :: rest) []

/-- A text without the mark that may precede it. -/
def withoutMark : List (List Char) → List (List Char)
  | ('\uFEFF' :: line) :: rest => line :: rest
  | lines => lines

/-- The lines up to the first one that is no text. -/
def textLines : List (List UInt8) → List (List Char)
  | [] => []
  | line :: rest =>
    match Text.Utf8.strict? line with
    | some text => text :: textLines rest
    | none => []

/-- The rules of a file. -/
def ofFile (content : List UInt8) : List IgnoreRule :=
  (withoutMark (textLines ((octetLines content).map withoutEnd))).filterMap ofLine?

/-- What some rules say about a path below their directory. -/
def decide (rules : List IgnoreRule) (path : List UInt8) (isDirectory : Bool) : Option Verdict :=
  (rules.reverse.find? fun rule =>
    rule.glob.covers path && (!rule.onlyDirectories || isDirectory)).map (·.verdict)

end IgnoreRule

/-- The rules of a directory. -/
structure Level where
  general : List IgnoreRule := []
  versioned : List IgnoreRule := []
  /-- The rules that the version control keeps to itself. -/
  excluded : List IgnoreRule := []
  /-- Whether the version control starts here. -/
  isVersioned : Bool := false

namespace Level

/-- The rules in a file below a directory. -/
def rulesAt (names : List String) (directory : FileNode) : List IgnoreRule :=
  match directory.below? names with
  | some (.file content) => IgnoreRule.ofFile content
  | _ => []

/-- The rules of a directory. -/
def ofDirectory (directory : FileNode) : Level where
  general := rulesAt [".ignore"] directory
  versioned := rulesAt [".gitignore"] directory
  excluded := rulesAt [".git", "info", "exclude"] directory
  isVersioned := (directory.child? ".git").isSome

end Level

/-- The rules of a directory and the directories above it, the nearest first, each with the names
that lead from there to the directory. -/
abbrev Levels := List (Level × List String)

namespace Levels

/-- Go into a directory. -/
def enter (levels : Levels) (name : String) (directory : FileNode) : Levels :=
  (Level.ofDirectory directory, []) ::
    levels.map fun (level, names) => (level, names ++ [name])

/-- The levels up to the one that the version control starts at. -/
def versionedPart : Levels → Levels
  | [] => []
  | level :: rest => if level.1.isVersioned then [level] else level :: versionedPart rest

/-- The first verdict on an entry of the directory. -/
def verdict (levels : Levels) (rules : Level → List IgnoreRule) (name : String)
    (isDirectory : Bool) : Option Verdict :=
  levels.findSome? fun (level, names) =>
    IgnoreRule.decide (rules level)
      (Text.Utf8.encode ("/".intercalate (names ++ [name])).toList) isDirectory

/-- Whether an entry of the directory is passed over: the rules say so, or they say nothing and its
name starts with a dot. -/
def isHidden (levels : Levels) (name : String) (isDirectory : Bool) : Bool :=
  let general := levels.verdict (·.general) name isDirectory
  let versioned :=
    if levels.any (·.1.isVersioned) then
      let part := levels.versionedPart
      (part.verdict (·.versioned) name isDirectory).or
        (part.verdict (·.excluded) name isDirectory)
    else none
  match general.or versioned with
  | some .ignored => true
  | some .kept => false
  | none => name.toList.head? == some '.'

end Levels

end CodeIndex
