import CodeIndex.Assembly
import CodeIndex.Cli.Arguments
import CodeIndex.Files.Sources
import CodeIndex.Index.ReportJson
import CodeIndex.Search.ResultJson

/-!
# Running a command

What a command line does to a tree of files, and what it prints.

## Main definitions

* `World` is what a command looks at, and `Outcome` what comes of it.
* `execute` runs a command on an open backend, and `run` a whole command line: it reads the
  configuration, opens the backend, runs the command and writes the database back.
-/

namespace CodeIndex.Cli

open Json (Value)

/-- What comes of a command line. -/
inductive Outcome where
  /-- The words make no sense. -/
  | usage
  /-- The command failed, with what it says about it. -/
  | failed (message : String)
  /-- The command prints a value. -/
  | printed (value : Value)

/-- The files, the variables of the environment, and the time in seconds since the epoch. -/
structure World where
  files : FileTree
  environment : Environment := []
  now : Int := 0

/-- A command that is being run: it may fail with a message, and changes the state of the index. -/
abbrev Running := ExceptT String (StateM (IndexState Backend))

namespace Running

/-- Run an operation of the index. -/
def index {α : Type} (operation : Indexing Backend α) : Running α := do
  let (answer, state) := operation.run.run (← get)
  set state
  match answer with
  | .ok a => return a
  | .error e => throw e.message

end Running

/-- Create a store, if there is none of the name. -/
def createIfMissing (store : String) : Running Unit :=
  tryCatch (Running.index (Indexing.call (RecordStore.createStore store))) fun _ =>
    throw ("failed to create store " ++ store)

/-- The files that some arguments stand for. -/
def readArguments (files : FileTree) (root : String) (paths : List String) :
    Running Files.ReadSources :=
  match Files.sourcesAt files (paths.map String.toList) with
  | .ok found => return Files.readSources files root.toList found
  | .error message => throw message

/-- Enter the files that could not be read into a report. -/
def addUnreadable (report : IndexReport) (unreadable : List (String × FileError)) : IndexReport :=
  unreadable.foldl (fun report (path, e) => report.recordFailure path e.message) report

/-- The path of an argument in the index. -/
def indexPath (root path : String) : String := Files.indexedPath root.toList path.toList

/-- Run a command. -/
def execute (config : Config) (files : FileTree) (root : String) : Command → Running Value
  | .createStore store => do
    let store := store.getD config.store.defaultStore
    createIfMissing store
    return .ofFields [("store", .ofString store), ("created", .bool true)]
  | .listStores => do
    return .ofStrings (← Running.index (Indexing.call RecordStore.allStores))
  | .dropStore store => do
    Running.index (Indexing.call (RecordStore.dropStore store))
    return .ofFields [("store", .ofString store), ("deleted", .bool true)]
  | .index store paths force => do
    createIfMissing store
    let loaded ← readArguments files root paths
    let report ← Running.index
      ((config.indexer config.embedder).addFiles store force loaded.files)
    return (addUnreadable report loaded.unreadable).toJson
  | .delete store paths start => do
    let report ← Running.index
      (Indexer.removeFiles store (paths.map (indexPath root)) start)
    return report.toJson
  | .rebuild store paths => do
    createIfMissing store
    let loaded ← readArguments files root paths
    let report ← Running.index ((config.indexer config.embedder).rebuild store loaded.files)
    return (addUnreadable report loaded.unreadable).toJson
  | .sync store paths => do
    let scopes := paths.map (indexPath root)
    let report ← Running.index
      (Indexer.syncMissing store (Files.survives files root.toList scopes))
    return report.toJson
  | .stats store => do
    let stats ← Running.index (Indexer.stats (store.getD config.store.defaultStore))
    return stats.toJson
  | .search store query limit => do
    let state ← get
    match config.searcher state.store config.embedder with
    | .error message => throw message
    | .ok searcher =>
      let (answer, backend) :=
        searcher.searchRecords store query (limit.getD config.search.limit) state.store
      set { state with store := backend }
      match answer with
      | .error e => throw e.message
      | .ok found => return .array (found.map Found.toJson)

/-- Read the configuration that a command line asks for. -/
def configFor (world : World) (arguments : Arguments) : Except String Config := do
  let path := (Config.path arguments.config world.environment).toList
  let config ←
    if world.files.contains path then
      match world.files.read path with
      | .ok content => Config.load (some content) world.environment
      | .error _ => throw "failed to read config file"
    else Config.load none world.environment
  config.validate
  return config

/-- Run a command line: what it prints, and the files afterwards. -/
def run (world : World) (words : List String) : Outcome × FileTree :=
  match Arguments.ofWords? words with
  | none => (.usage, world.files)
  | some arguments =>
    match configFor world arguments with
    | .error message => (.failed message, world.files)
    | .ok config =>
      match config.store.openBackend world.files with
      | .error message => (.failed message, world.files)
      | .ok (backend, files) =>
        let (answer, state) :=
          (execute config files arguments.root arguments.command).run.run
            { store := backend, now := world.now }
        let files := config.store.saveBackend state.store files
        match answer with
        | .error message => (.failed message, files)
        | .ok value => (.printed value, files)

end CodeIndex.Cli
