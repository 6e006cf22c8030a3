import CodeIndex.Assembly
import CodeIndex.Cancellation
import CodeIndex.Chunk.Basic
import CodeIndex.Chunk.ChunkJson
import CodeIndex.Chunk.LineWindow
import CodeIndex.Chunk.Structural
import CodeIndex.Cli.Arguments
import CodeIndex.Cli.Run
import CodeIndex.Config.Basic
import CodeIndex.Config.Reading
import CodeIndex.Embedding.Basic
import CodeIndex.Embedding.Hashing
import CodeIndex.Files.Changes
import CodeIndex.Files.Glob
import CodeIndex.Files.Ignore
import CodeIndex.Files.Sources
import CodeIndex.Files.Tree
import CodeIndex.FullText.Index
import CodeIndex.FullText.Letter
import CodeIndex.FullText.Query
import CodeIndex.FullText.Token
import CodeIndex.Grammar.Combinators
import CodeIndex.Grammar.Go
import CodeIndex.Grammar.Json
import CodeIndex.Grammar.Machine
import CodeIndex.Grammar.Markdown
import CodeIndex.Grammar.Parser
import CodeIndex.Grammar.Pattern
import CodeIndex.Grammar.Python
import CodeIndex.Grammar.Rust
import CodeIndex.Grammar.Scan
import CodeIndex.Grammar.Script.Expression
import CodeIndex.Grammar.Script.Statement
import CodeIndex.Grammar.Script.Token
import CodeIndex.Grammar.Script.Typing
import CodeIndex.Grammar.Shell
import CodeIndex.Grammar.ToTree
import CodeIndex.Grammar.Toml
import CodeIndex.Hash.Blake3
import CodeIndex.Identity
import CodeIndex.Index.Error
import CodeIndex.Index.Indexer
import CodeIndex.Index.Report
import CodeIndex.Index.ReportJson
import CodeIndex.Json.Codec
import CodeIndex.Json.Parser
import CodeIndex.Json.Pretty
import CodeIndex.Json.Value
import CodeIndex.Language.Basic
import CodeIndex.Language.Detect
import CodeIndex.Main
import CodeIndex.Number.Binary
import CodeIndex.Number.Decimal
import CodeIndex.Number.Logarithm
import CodeIndex.Path.Basic
import CodeIndex.Proofs.Chunk.Calm
import CodeIndex.Proofs.Chunk.Cover
import CodeIndex.Proofs.Chunk.SharedLines
import CodeIndex.Proofs.Chunk.Steady
import CodeIndex.Proofs.Chunk.Symbols
import CodeIndex.Proofs.Chunk.Windows
import CodeIndex.Proofs.Config.Validation
import CodeIndex.Proofs.Embedding.Balance
import CodeIndex.Proofs.Files.Batch
import CodeIndex.Proofs.Files.Scope
import CodeIndex.Proofs.Files.StoredPaths
import CodeIndex.Proofs.Files.Walk
import CodeIndex.Proofs.FullText.Encoding
import CodeIndex.Proofs.FullText.Expressions
import CodeIndex.Proofs.FullText.Phrases
import CodeIndex.Proofs.Grammar.Conversion
import CodeIndex.Proofs.Grammar.Placement
import CodeIndex.Proofs.Grammar.Recursion
import CodeIndex.Proofs.Identity.Keys
import CodeIndex.Proofs.Index.Abreast
import CodeIndex.Proofs.Index.BatchRun
import CodeIndex.Proofs.Index.Cancelled
import CodeIndex.Proofs.Index.Contents
import CodeIndex.Proofs.Index.DecodedLines
import CodeIndex.Proofs.Index.FailedFiles
import CodeIndex.Proofs.Index.FileRun
import CodeIndex.Proofs.Index.FiredToken
import CodeIndex.Proofs.Index.Healing
import CodeIndex.Proofs.Index.Isolation
import CodeIndex.Proofs.Index.Lifecycle
import CodeIndex.Proofs.Index.Operations
import CodeIndex.Proofs.Index.Outcome
import CodeIndex.Proofs.Index.Removals
import CodeIndex.Proofs.Index.Reports
import CodeIndex.Proofs.Index.Versions
import CodeIndex.Proofs.Json.Fields
import CodeIndex.Proofs.Json.Records
import CodeIndex.Proofs.Json.Strings
import CodeIndex.Proofs.Json.Values
import CodeIndex.Proofs.Number.FloatOrder
import CodeIndex.Proofs.Number.Normal
import CodeIndex.Proofs.Number.Packing
import CodeIndex.Proofs.Number.Rounding
import CodeIndex.Proofs.Number.Single
import CodeIndex.Proofs.Path.Descent
import CodeIndex.Proofs.Path.Order
import CodeIndex.Proofs.Path.Steps
import CodeIndex.Proofs.Path.TextAfter
import CodeIndex.Proofs.Search.Dominance
import CodeIndex.Proofs.Search.Fusion
import CodeIndex.Proofs.Search.Joining
import CodeIndex.Proofs.Store.Atomic
import CodeIndex.Proofs.Store.Backends
import CodeIndex.Proofs.Store.ChunkIndexes
import CodeIndex.Proofs.Store.ChunkTable
import CodeIndex.Proofs.Store.Collection
import CodeIndex.Proofs.Store.DatabaseLaws
import CodeIndex.Proofs.Store.Equivalence
import CodeIndex.Proofs.Store.History
import CodeIndex.Proofs.Store.Isolation
import CodeIndex.Proofs.Store.KeptChunks
import CodeIndex.Proofs.Store.LexicalSearch
import CodeIndex.Proofs.Store.Lockstep
import CodeIndex.Proofs.Store.MissingStore
import CodeIndex.Proofs.Store.OtherStores
import CodeIndex.Proofs.Store.PointNumber
import CodeIndex.Proofs.Store.Removals
import CodeIndex.Proofs.Store.Scripted
import CodeIndex.Proofs.Store.Shelf
import CodeIndex.Proofs.Store.Statements
import CodeIndex.Proofs.Store.Tables
import CodeIndex.Proofs.Store.WrittenChunks
import CodeIndex.Proofs.Symbol.Distinct
import CodeIndex.Proofs.Symbol.Extraction
import CodeIndex.Proofs.Syntax.LineNumbers
import CodeIndex.Proofs.Syntax.Measures
import CodeIndex.Proofs.Syntax.Names
import CodeIndex.Proofs.Syntax.Places
import CodeIndex.Proofs.Text.Decoding
import CodeIndex.Proofs.Text.Hexadecimal
import CodeIndex.Proofs.Text.LineList
import CodeIndex.Proofs.Text.MaximalRuns
import CodeIndex.Proofs.Text.Newlines
import CodeIndex.Proofs.Text.Pieces
import CodeIndex.Proofs.Text.Slices
import CodeIndex.Search.Hybrid
import CodeIndex.Search.RankFusion
import CodeIndex.Search.ResultJson
import CodeIndex.Store.Backend
import CodeIndex.Store.Error
import CodeIndex.Store.Faulty
import CodeIndex.Store.Interface
import CodeIndex.Store.Memory
import CodeIndex.Store.Record
import CodeIndex.Store.RecordJson
import CodeIndex.Store.Relational
import CodeIndex.Store.ServiceAddress
import CodeIndex.Store.Snapshot
import CodeIndex.Store.Vector
import CodeIndex.Symbol.Declaration
import CodeIndex.Symbol.Extract
import CodeIndex.Symbol.Pattern
import CodeIndex.Syntax.Parser
import CodeIndex.Syntax.Tree
import CodeIndex.Text.Alphanumeric
import CodeIndex.Text.Lines
import CodeIndex.Text.Lowercase
import CodeIndex.Text.Ranges
import CodeIndex.Text.Utf8
import CodeIndex.Text.WordCharacter
import CodeIndex.Text.Words
import CodeIndex.Toml.Document
import CodeIndex.Toml.Scalar
import CodeIndex.Toml.Table
