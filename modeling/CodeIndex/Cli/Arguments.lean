import CodeIndex.Config.Reading

/-!
# The arguments of the command line

What the words of the command line mean.  The first word that is no option names the command;
options may stand anywhere, and after two dashes every word is taken as it is.  Each option may be given
once, before or behind the name of the command.

## Main definitions

* `Command` are the commands with their arguments, `Arguments` a command with the options that all
  commands share.
* `Words` is what has been read, and `Words.step?` reads a word.
* `Arguments.ofWords?` reads a whole command line; it has no answer for one that makes no sense.
-/

namespace CodeIndex.Cli

/-- What the program is asked to do. -/
inductive Command where
  | createStore (store : Option String)
  | listStores
  | dropStore (store : String)
  | index (store : String) (paths : List String) (force : Bool)
  | delete (store : String) (paths : List String) (start : Option String)
  | rebuild (store : String) (paths : List String)
  | sync (store : String) (paths : List String)
  | stats (store : Option String)
  | search (store query : String) (limit : Option Nat)
deriving DecidableEq, Repr

/-- A command with the options that all commands share. -/
structure Arguments where
  command : Command
  config : Option String := none
  root : String := "."
deriving DecidableEq, Repr

/-- The options. -/
inductive OptionName where
  | config | root | force | start | limit
deriving DecidableEq, Repr

namespace OptionName

/-- The option of a long name. -/
def ofLong? : List Char → Option OptionName := fun name =>
  match String.ofList name with
  | "config" => some config
  | "root" => some root
  | "force" => some force
  | "prefix" => some start
  | "limit" => some limit
  | _ => none

/-- Whether an option can be used with a command; some can be used with all of them. -/
def fits (option : OptionName) (command : Option String) : Bool :=
  match option with
  | config => true
  | root => true
  | force => command == some "index"
  | start => command == some "delete"
  | limit => command == some "search"

/-- Whether an option has a value. -/
def hasValue (option : OptionName) : Bool := option != force

end OptionName

/-- The words that have been read. -/
structure Words where
  command : Option String := none
  arguments : List String := []
  /-- Options that stand before the name of the command. -/
  shared : List (OptionName × String) := []
  /-- Options that stand behind it. -/
  own : List (OptionName × String) := []
  /-- The option whose value is next. -/
  waiting : Option OptionName := none
  /-- Whether two dashes have been read. -/
  literal : Bool := false

namespace Words

/-- The names of the commands. -/
def commandNames : List String :=
  ["create-store", "list-stores", "drop-store", "index", "delete", "reindex", "sync", "stats",
    "search"]

/-- Note an option; one that does not fit or was given in the same place makes no sense. -/
def note? (words : Words) (option : OptionName) (value : String) : Option Words :=
  if !option.fits words.command then none
  else
    match words.command with
    | none =>
      if words.shared.any (·.1 == option) then none
      else some { words with shared := (option, value) :: words.shared, waiting := none }
    | some _ =>
      if words.own.any (·.1 == option) then none
      else some { words with own := (option, value) :: words.own, waiting := none }

/-- Note a word that is no option. -/
def plain? (words : Words) (word : String) : Option Words :=
  match words.command with
  | some _ => some { words with arguments := words.arguments ++ [word] }
  | none =>
    if commandNames.contains word && !words.literal then some { words with command := some word }
    else none

/-- Note an option with the value that may be attached to it. -/
def option? (words : Words) (option : OptionName) (attached : Option (List Char)) : Option Words :=
  if !option.fits words.command then none
  else
    match attached with
    | some value => if option.hasValue then words.note? option (String.ofList value) else none
    | none =>
      if option.hasValue then some { words with waiting := some option }
      else words.note? option ""

/-- Read a word that starts with two dashes, without them. -/
def long? (words : Words) (text : List Char) : Option Words :=
  let name := text.takeWhile (· != '=')
  (OptionName.ofLong? name).bind fun option =>
    words.option? option (if name.length < text.length then some (text.drop (name.length + 1))
      else none)

/-- Read a word that starts with one dash, without it. -/
def short? (words : Words) : List Char → Option Words
  | ['l'] => words.option? .limit none
  | 'l' :: '=' :: value => words.option? .limit (some value)
  | 'l' :: value => words.option? .limit (some value)
  | _ => none

/-- Read a word. -/
def step? (words : Words) (word : String) : Option Words :=
  if words.literal then words.plain? word
  else
    match words.waiting, word.toList with
    | some _, '-' :: _ :: _ => none
    | some option, _ => words.note? option word
    | none, ['-', '-'] => some { words with literal := true }
    | none, '-' :: '-' :: text => words.long? text
    | none, '-' :: c :: text => words.short? (c :: text)
    | none, _ => words.plain? word

/-- The value of an option. -/
def value? (words : Words) (option : OptionName) : Option String :=
  (words.own.lookup option).or (words.shared.lookup option)

/-- The limit that was given; `none` if it is no number. -/
def limit? (words : Words) : Option (Option Nat) :=
  match words.value? .limit with
  | none => some none
  | some text => (Config.number? maxSetting text).map some

/-- Some paths, none of which is empty. -/
def paths? (paths : List String) : Option (List String) :=
  if paths.any (·.isEmpty) then none else some paths

/-- The command that the words amount to. -/
def command? (words : Words) : Option Command :=
  match words.command, words.arguments with
  | some "create-store", [] => some (.createStore none)
  | some "create-store", [store] => some (.createStore (some store))
  | some "list-stores", [] => some .listStores
  | some "drop-store", [store] => some (.dropStore store)
  | some "index", store :: path :: paths =>
    (paths? (path :: paths)).map fun paths =>
      .index store paths (words.value? .force).isSome
  | some "delete", store :: paths => some (.delete store paths (words.value? .start))
  | some "reindex", store :: path :: paths => (paths? (path :: paths)).map (.rebuild store)
  | some "sync", [store] => some (.sync store ["."])
  | some "sync", store :: paths => (paths? paths).map (.sync store)
  | some "stats", [] => some (.stats none)
  | some "stats", [store] => some (.stats (some store))
  | some "search", [store, query] => words.limit?.map (.search store query)
  | _, _ => none

end Words

/-- Read a command line. -/
def Arguments.ofWords? (words : List String) : Option Arguments := do
  let words ← words.foldlM Words.step? {}
  if words.waiting.isSome then none
  else
    let command ← words.command?
    let config := words.value? .config
    let root := (words.value? .root).getD "."
    if config == some "" || root.isEmpty then none
    else some { command, config, root }

end CodeIndex.Cli
