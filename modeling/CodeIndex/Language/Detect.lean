import CodeIndex.Language.Basic
import CodeIndex.Path.Basic

/-!
# The language of a file

A file's language is read off its name alone: first off the extension, without regard to case, and
if that is no known one, off a few names that build tools give a meaning to.  `Language.ofPath`
decides it and `isKnownFile` says which files a directory walk takes.
-/

namespace CodeIndex.Language

/-- A text with the ASCII capitals in lower case. -/
def asciiLower (text : List Char) : List Char :=
  text.map Char.toLower

/-- The language of an extension in lower case. -/
def ofExtension? (extension : String) : Option Language :=
  match extension with
  | "rs" => some rust
  | "py" | "pyi" => some python
  | "js" | "jsx" | "mjs" | "cjs" => some javascript
  | "ts" | "tsx" | "mts" | "cts" => some typescript
  | "go" => some go
  | "sh" | "bash" | "zsh" => some bash
  | "toml" => some toml
  | "json" | "jsonc" => some json
  | "md" | "markdown" => some markdown
  | "java" => some java
  | "c" | "h" => some c
  | "cpp" | "cc" | "cxx" | "hpp" => some cpp
  | "cs" => some csharp
  | "rb" => some ruby
  | "php" => some php
  | "swift" => some swift
  | "kt" | "kts" => some kotlin
  | "scala" => some scala
  | "yaml" | "yml" => some yaml
  | "sql" => some sql
  | "html" | "htm" => some html
  | "css" | "scss" | "less" => some css
  | _ => none

/-- The language of a file name that has a meaning of its own, in lower case. -/
def ofWellKnownName (name : List Char) : Language :=
  if name = "dockerfile".toList ∨ "dockerfile.".toList.isPrefixOf name then dockerfile
  else if name = "makefile".toList ∨ name = "gnumakefile".toList then makefile
  else unknown

/-- The language of the file that a path denotes. -/
def ofPath (path : String) : Language :=
  let byExtension := (Path.extension? path.toList).bind fun extension =>
    ofExtension? (String.ofList (asciiLower extension))
  match byExtension with
  | some language => language
  | none => ofWellKnownName (asciiLower ((Path.fileName? path.toList).getD []))

/-- Whether a file is of a known language. -/
def isKnownFile (path : String) : Bool :=
  ofPath path != unknown

end CodeIndex.Language
