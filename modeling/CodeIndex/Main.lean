import Std.Time.DateTime.Timestamp
import CodeIndex.Cli.Run
import CodeIndex.Files.Changes
import CodeIndex.Json.Pretty

/-!
# The program

The command line: it takes a picture of the files that a command can look at, runs the command on
the picture, writes back what has changed and prints the outcome.

The picture holds the working directory and whatever an argument leads to, links below them left
out, and of the directories above them what decides which files are hidden.
-/

namespace CodeIndex.Program

/-- The files of a directory that decide what is hidden in it. -/
def markerNames : List String := [".git", ".gitignore", ".ignore"]

/-- The path that some names lead to from the root. -/
def pathOf (names : List String) : String := "/" ++ "/".intercalate names

/-- Do something that may fail, and go on without it if it does. -/
def attempt {α : Type} (action : IO α) : IO (Option α) :=
  tryCatch (some <$> action) fun _ => return none

/-- The names that lead to a file without going through a link, if there is such a file. -/
def realNames? (path : String) : IO (Option (List String)) := do
  let some real ← attempt (IO.FS.realPath path) | return none
  return some ((toString real).splitOn "/" |>.filter (!·.isEmpty))

/-- What is at the end of some names, with everything below it but links. -/
partial def picture (names : List String) : IO (Option FileNode) := do
  match ← attempt (do (← IO.FS.realPath (pathOf names)).readDir) with
  | none =>
    let some content ← attempt (IO.FS.readBinFile (pathOf names)) | return none
    return some (.file content.toList)
  | some found =>
    let mut entries : List (String × FileNode) := []
    for entry in found do
      let inner := names ++ [entry.fileName]
      if entry.fileName == ".git" then
        entries := (entry.fileName, FileNode.empty) :: entries
      else if (← realNames? (pathOf inner)) == some inner then
        if let some node ← picture inner then
          entries := (entry.fileName, node) :: entries
    return some (.directory (entries.mergeSort fun a b => decide (a.1 ≤ b.1)))

/-- Add what is at the end of some names to a picture, and what decides what is hidden there. -/
def addTo (root : FileNode) (names : List String) : IO FileNode := do
  let mut root := root
  for above in (List.range names.length).map names.take do
    for marker in markerNames do
      let inner := above ++ [marker]
      if (root.below? inner).isNone then
        if marker == ".git" then
          if (← realNames? (pathOf inner)).isSome then root := FileNode.insert .empty inner root
        else if let some content ← attempt (IO.FS.readBinFile (pathOf inner)) then
          root := FileNode.insert (.file content.toList) inner root
  match ← picture names with
  | some node => return FileNode.insert node names root
  | none => return root

/-- The files that a command line can look at. -/
def filesFor (words : List String) : IO FileTree := do
  let here := (← realNames? ".").getD []
  let mut root ← addTo .empty here
  for word in words do
    if let some names ← realNames? word then
      unless here.isPrefixOf names && (root.below? names).isSome do
        root ← addTo root names
  return { root, workingDirectory := here }

/-- The variables of the environment that are looked at. -/
def environment : IO Environment :=
  Config.variableNames.filterMapM fun name =>
    return (← IO.getEnv name).map (name, ·)

/-- Do to the files what has been done to the picture. -/
def writeBack (change : FileChange) : IO Unit :=
  match change with
  | .made names => IO.FS.createDirAll (pathOf names)
  | .written names content => IO.FS.writeBinFile (pathOf names) ⟨content.toArray⟩

/-- How a command line is written. -/
def usage : String :=
  "Usage: sift [--config <CONFIG>] [--root <ROOT>] <COMMAND>\n\n" ++
  "Commands: create-store, list-stores, drop-store, index, delete, reindex, sync, stats, search"

/-- Run a command line: zero if it succeeds, one if it fails and two if it makes no sense. -/
def run (words : List String) : IO UInt32 := do
  let files ← filesFor words
  let now := (← Std.Time.Timestamp.now).toSecondsSinceUnixEpoch.val
  let (outcome, after) := Cli.run { files, environment := ← environment, now } words
  for change in files.changes after do
    writeBack change
  match outcome with
  | .usage => do
    IO.eprintln usage
    return 2
  | .failed message => do
    IO.eprintln ("Error: " ++ message)
    return 1
  | .printed value => do
    IO.println value.pretty
    return 0

end CodeIndex.Program

/-- The program. -/
def main (words : List String) : IO UInt32 := CodeIndex.Program.run words
