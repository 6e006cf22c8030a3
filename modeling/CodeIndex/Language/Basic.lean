/-!
# Languages

The languages that the index tells apart.  Every language has an identifier, by which stored
records and the configuration name it, and `Language.ofId?` reads an identifier back.
`Language.hasGrammar` names the languages whose files are parsed; all others are cut by lines.
-/

namespace CodeIndex

/-- A language of source files. -/
inductive Language where
  | rust | python | javascript | typescript | go | bash | toml | json | markdown
  | java | c | cpp | csharp | ruby | php | swift | kotlin | scala
  | yaml | sql | html | css | dockerfile | makefile
  /-- A file of no known language. -/
  | unknown
deriving DecidableEq, Repr, Inhabited

namespace Language

/-- Every language once. -/
def all : List Language :=
  [rust, python, javascript, typescript, go, bash, toml, json, markdown, java, c, cpp, csharp,
    ruby, php, swift, kotlin, scala, yaml, sql, html, css, dockerfile, makefile, unknown]

/-- The name of the language in records and configuration. -/
def id : Language → String
  | rust => "rust"
  | python => "python"
  | javascript => "javascript"
  | typescript => "typescript"
  | go => "go"
  | bash => "bash"
  | toml => "toml"
  | json => "json"
  | markdown => "markdown"
  | java => "java"
  | c => "c"
  | cpp => "cpp"
  | csharp => "csharp"
  | ruby => "ruby"
  | php => "php"
  | swift => "swift"
  | kotlin => "kotlin"
  | scala => "scala"
  | yaml => "yaml"
  | sql => "sql"
  | html => "html"
  | css => "css"
  | dockerfile => "dockerfile"
  | makefile => "makefile"
  | unknown => "unknown"

/-- The language of an identifier. -/
def ofId? (name : String) : Option Language :=
  all.find? fun language => language.id == name

/-- Whether files of the language can be parsed. -/
def hasGrammar : Language → Bool
  | rust | python | javascript | typescript | go | bash | toml | json | markdown => true
  | _ => false

/-- An identifier names its language. -/
theorem ofId?_id (language : Language) : ofId? language.id = some language := by
  cases language <;> decide

end Language

end CodeIndex
