import CodeIndex.Config.Basic
import CodeIndex.Text.Utf8
import CodeIndex.Toml.Document

/-!
# Reading the configuration

A configuration is read from a TOML document, in which every setting may be missing and settings
that are not known are passed over, and then overridden by variables of the environment.  A variable
whose value makes no sense is passed over as well.

## Main definitions

* `Settings` is a table or an array that stands for a group of settings, and `Settings.setting`
  takes one out.
* `Config.ofToml?` reads a document, `Config.override` applies an environment, and `Config.load`
  does both.
* `Config.path` is the file to read.
-/

namespace CodeIndex

open Toml (Value)

/-- The greatest number of a setting: it fits 64 bits. -/
def maxSetting : Nat := 0xFFFFFFFFFFFFFFFF

/-- The greatest rank constant: it fits 32 bits. -/
def maxRankSetting : Nat := 0xFFFFFFFF

namespace Setting

/-- A number from zero to a greatest one. -/
def natural? (greatest : Nat) : Value → Option Nat
  | .integer n => if 0 ≤ n ∧ n ≤ greatest then some n.toNat else none
  | _ => none

/-- A text. -/
def text? : Value → Option String
  | .string s => some s
  | _ => none

/-- A kind of backend: its name, or a table with the name as its only key and nothing in it. -/
def backend? : Value → Option BackendKind
  | .string name => BackendKind.ofName? name
  | .table [(name, .table [])] => BackendKind.ofName? name
  | .table [(name, .array [])] => BackendKind.ofName? name
  | _ => none

/-- A weight; an integer is rounded to the nearest number. -/
def weight? : Value → Option Weight
  | .float bits => some ⟨bits⟩
  | .integer n =>
    if -0x8000000000000000 ≤ n ∧ n ≤ maxSetting then
      some ⟨(Number.Decimal.mk (n < 0) n.natAbs 0).toFloat.toBits⟩
    else none
  | _ => none

/-- A list of texts. -/
def texts? : Value → Option (List String)
  | .array items => items.mapM text?
  | _ => none

/-- A table whose values are all of one kind. -/
def table? {α : Type} (read : Value → Option α) : Value → Option (List (String × α))
  | .table entries => entries.mapM fun (key, value) => (read value).map (key, ·)
  | _ => none

end Setting

/-- A group of settings by name. -/
structure Settings where
  entries : List (String × Value)

namespace Settings

/-- The settings with the given names: a table, or an array of their values in order.  A moment
counts as a table without known settings. -/
def ofValue? (names : List String) : Value → Option Settings
  | .table entries => some ⟨entries⟩
  | .array items => some ⟨names.zip items⟩
  | .moment => some ⟨[]⟩
  | _ => none

/-- One setting, or its default. -/
def setting {α : Type} (settings : Settings) (name : String) (standard : α)
    (read : Value → Option α) : Option α :=
  match settings.entries.lookup name with
  | none => some standard
  | some value => read value

end Settings

namespace StoreConfig

/-- The names of the settings in order. -/
def names : List String := ["backend", "sqlite_path", "qdrant_url", "default_store"]

/-- Read the settings of a table. -/
def ofToml? (value : Value) : Option StoreConfig := do
  let settings ← Settings.ofValue? names value
  let standard : StoreConfig := {}
  let backend ← settings.setting "backend" standard.backend Setting.backend?
  let databasePath ← settings.setting "sqlite_path" standard.databasePath Setting.text?
  let serviceAddress ← settings.setting "qdrant_url" standard.serviceAddress Setting.text?
  let defaultStore ← settings.setting "default_store" standard.defaultStore Setting.text?
  return { backend, databasePath, serviceAddress, defaultStore }

end StoreConfig

namespace IndexConfig

/-- The names of the settings in order. -/
def names : List String :=
  ["max_lines", "window_overlap", "max_file_size", "max_path_length", "chunkable_kinds",
    "embedding_dim"]

/-- Read the settings of a table. -/
def ofToml? (value : Value) : Option IndexConfig := do
  let settings ← Settings.ofValue? names value
  let standard : IndexConfig := {}
  let count := Setting.natural? maxSetting
  let maxLines ← settings.setting "max_lines" standard.maxLines count
  let windowOverlap ← settings.setting "window_overlap" standard.windowOverlap count
  let maxFileSize ← settings.setting "max_file_size" standard.maxFileSize count
  let maxPathLength ← settings.setting "max_path_length" standard.maxPathLength count
  let chunkableKinds ← settings.setting "chunkable_kinds" standard.chunkableKinds
    (Setting.table? Setting.texts?)
  let embeddingDim ← settings.setting "embedding_dim" standard.embeddingDim count
  return ⟨maxLines, windowOverlap, maxFileSize, maxPathLength, chunkableKinds, embeddingDim⟩

end IndexConfig

namespace SearchConfig

/-- The names of the settings in order. -/
def names : List String := ["rrf_k", "weights", "limit", "top_k"]

/-- Read the settings of a table. -/
def ofToml? (value : Value) : Option SearchConfig := do
  let settings ← Settings.ofValue? names value
  let standard : SearchConfig := {}
  let rankConstant ←
    settings.setting "rrf_k" standard.rankConstant (Setting.natural? maxRankSetting)
  let weights ← settings.setting "weights" standard.weights (Setting.table? Setting.weight?)
  let limit ← settings.setting "limit" standard.limit (Setting.natural? maxSetting)
  let topK ← settings.setting "top_k" standard.topK (Setting.natural? maxSetting)
  return { rankConstant, weights, limit, topK }

end SearchConfig

/-- The variables of an environment. -/
abbrev Environment := List (String × String)

namespace Config

/-- Read the settings of a document. -/
def ofToml? (text : List Char) : Option Config := do
  let settings : Settings := ⟨← Toml.parse? text⟩
  let store ← settings.setting "store" {} StoreConfig.ofToml?
  let index ← settings.setting "index" {} IndexConfig.ofToml?
  let search ← settings.setting "search" {} SearchConfig.ofToml?
  return { store, index, search }

/-- The value of decimal digits behind an optional plus sign. -/
def number? (greatest : Nat) (text : String) : Option Nat :=
  let digits := match text.toList with
    | '+' :: digits => digits
    | digits => digits
  if !digits.isEmpty ∧ digits.all Char.isDigit ∧ Json.ofDigits digits ≤ greatest then
    some (Json.ofDigits digits)
  else none

/-- The number that a variable sets, or the number that was set before. -/
def numberFrom (environment : Environment) (name : String) (greatest standard : Nat) : Nat :=
  ((environment.lookup name).bind (number? greatest)).getD standard

/-- The variables of an environment that are looked at. -/
def variableNames : List String := [
  "SIFT_CONFIG", "SIFT_STORE_BACKEND", "SIFT_SQLITE_PATH", "SIFT_QDRANT_URL", "SIFT_DEFAULT_STORE",
  "SIFT_INDEX_MAX_LINES", "SIFT_INDEX_WINDOW_OVERLAP", "SIFT_INDEX_MAX_FILE_SIZE",
  "SIFT_SEARCH_RRF_K", "SIFT_SEARCH_LIMIT", "SIFT_SEARCH_TOP_K"]

/-- Let the variables of an environment override settings. -/
def override (environment : Environment) (config : Config) : Config where
  store := { config.store with
    backend := ((environment.lookup "SIFT_STORE_BACKEND").bind BackendKind.ofName?).getD
      config.store.backend
    databasePath := (environment.lookup "SIFT_SQLITE_PATH").getD config.store.databasePath
    serviceAddress := (environment.lookup "SIFT_QDRANT_URL").getD config.store.serviceAddress
    defaultStore := (environment.lookup "SIFT_DEFAULT_STORE").getD config.store.defaultStore }
  index := { config.index with
    maxLines := numberFrom environment "SIFT_INDEX_MAX_LINES" maxSetting config.index.maxLines
    windowOverlap :=
      numberFrom environment "SIFT_INDEX_WINDOW_OVERLAP" maxSetting config.index.windowOverlap
    maxFileSize :=
      numberFrom environment "SIFT_INDEX_MAX_FILE_SIZE" maxSetting config.index.maxFileSize }
  search := { config.search with
    rankConstant :=
      numberFrom environment "SIFT_SEARCH_RRF_K" maxRankSetting config.search.rankConstant
    limit := numberFrom environment "SIFT_SEARCH_LIMIT" maxSetting config.search.limit
    topK := numberFrom environment "SIFT_SEARCH_TOP_K" maxSetting config.search.topK }

/-- Read a configuration file, if there is one, and apply an environment. -/
def load (file : Option (List UInt8)) (environment : Environment) : Except String Config :=
  match file with
  | none => .ok (override environment {})
  | some octets =>
    match Text.Utf8.strict? octets with
    | none => .error "failed to read config file"
    | some text =>
      match ofToml? text with
      | none => .error "failed to parse config file"
      | some config => .ok (config.override environment)

/-- The path of the configuration file: the given one, or that of the environment, or the usual
one. -/
def path (given : Option String) (environment : Environment) : String :=
  match given, environment.lookup "SIFT_CONFIG" with
  | some path, _ => path
  | none, some path => path
  | none, none => "config/default.toml"

end Config

end CodeIndex
