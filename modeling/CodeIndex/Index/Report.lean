/-!
# Reports

What the operations of the index answer with.  An `IndexReport` has one outcome for each file that
was handed in, in the order of the files, and counters over them; `IndexReport.record` is the only
way by which an outcome gets in, so the counters and the list agree.
-/

namespace CodeIndex

/-- What happened to a file. -/
inductive FileStatus where
  /-- The file was cut and written. -/
  | indexed
  /-- The stored version is the file's. -/
  | skipped
  /-- The file was not written. -/
  | failed
deriving DecidableEq, Repr

namespace FileStatus

/-- The name of a status. -/
def name : FileStatus → String
  | indexed => "indexed"
  | skipped => "skipped"
  | failed => "failed"

/-- The status of a name. -/
def ofName? : String → Option FileStatus
  | "indexed" => some indexed
  | "skipped" => some skipped
  | "failed" => some failed
  | _ => none

end FileStatus

/-- What happened to one file of a batch.  A file that failed has no identifier. -/
structure FileOutcome where
  path : String
  documentId : String
  status : FileStatus
  chunks : Nat
  error : Option String := none
deriving DecidableEq, Repr

/-- What happened to a batch of files. -/
structure IndexReport where
  store : String
  indexed : Nat := 0
  skipped : Nat := 0
  failed : Nat := 0
  /-- Chunks of the files that were written. -/
  chunksTotal : Nat := 0
  durationMs : Nat := 0
  files : List FileOutcome := []
deriving DecidableEq, Repr

namespace IndexReport

/-- Enter an outcome. -/
def record (report : IndexReport) (outcome : FileOutcome) : IndexReport :=
  let report := { report with files := report.files ++ [outcome] }
  match outcome.status with
  | .indexed =>
    { report with
      indexed := report.indexed + 1, chunksTotal := report.chunksTotal + outcome.chunks }
  | .skipped => { report with skipped := report.skipped + 1 }
  | .failed => { report with failed := report.failed + 1 }

/-- Enter a file that failed. -/
def recordFailure (report : IndexReport) (path error : String) : IndexReport :=
  report.record { path, documentId := "", status := .failed, chunks := 0, error := some error }

/-- The paths of the files that failed, in order. -/
def failedPaths (report : IndexReport) : List String :=
  (report.files.filter (·.status = .failed)).map (·.path)

end IndexReport

/-- What a deletion removed. -/
structure DeleteReport where
  documentsRemoved : Nat := 0
  chunksRemoved : Nat := 0
  paths : List String := []
deriving DecidableEq, Repr

/-- What a synchronisation removed. -/
structure SyncReport where
  removed : List String := []
  chunksRemoved : Nat := 0
deriving DecidableEq, Repr

end CodeIndex
