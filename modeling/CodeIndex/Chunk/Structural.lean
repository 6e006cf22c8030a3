import CodeIndex.Chunk.LineWindow
import CodeIndex.Syntax.Parser

/-!
# Structural chunks

A parsed file is cut at the topmost nodes of certain kinds.  Each such node becomes a span of the
file, with the names that are declared in it; spans that touch a common line become one.  A file
without such a node is cut into line windows.

## Main definitions

* `KindRegistry` says at which kinds of nodes the files of a language are cut.
* `Span` is the part of a file that a chunk is made of; `Chunker.spansFrom` collects the spans of
  the topmost chunkable nodes in source order and `Span.mergeAll` joins those that share a line.
* `Chunker.structural` cuts a file at its nodes, and `Chunker.chunks` falls back to windows.
-/

namespace CodeIndex

/-- The kinds of nodes that become chunks, by language. -/
structure KindRegistry where
  kinds : Language → List String

namespace KindRegistry

/-- No kind of any language. -/
def empty : KindRegistry := ⟨fun _ => []⟩

/-- Replace the kinds of one language. -/
def set (registry : KindRegistry) (language : Language) (kinds : List String) : KindRegistry :=
  ⟨fun l => if l = language then kinds else registry.kinds l⟩

/-- Kinds that both script languages share. -/
def scriptKinds : List String :=
  ["function_declaration", "class_declaration", "interface_declaration", "method_definition"]

/-- The declarations of the languages that have definitions worth finding. -/
def standard : KindRegistry where
  kinds
    | .rust => ["function_item", "struct_item", "enum_item", "trait_item", "impl_item",
        "type_item", "mod_item", "macro_definition"]
    | .python => ["function_definition", "class_definition"]
    | .javascript => scriptKinds
    | .typescript => scriptKinds
    | .go => ["function_declaration", "method_declaration", "type_declaration"]
    | _ => []

/-- Whether a node of this kind becomes a chunk. -/
def selects (registry : KindRegistry) (language : Language) (kind : String) : Bool :=
  (registry.kinds language).contains kind

/-- The kinds of a language in order, each once. -/
def sortedKinds (registry : KindRegistry) (language : Language) : List String :=
  ((registry.kinds language).mergeSort fun a b => decide (a ≤ b)).eraseDups

end KindRegistry

/-- A part of a file from the first byte of one node to the last byte of another. -/
structure Span where
  startByte : Nat
  endByte : Nat
  startLine : Nat
  endLine : Nat
  kind : String
  symbols : List String
deriving DecidableEq, Repr

namespace Span

/-- The span of one node. -/
def ofTree (tree : Tree) : Span :=
  ⟨tree.startByte, tree.endByte, tree.startLine, tree.endLine, tree.kind,
    tree.declaredNames Symbol.maxSymbols⟩

/-- Add a symbol that is new, as long as there is room. -/
def addSymbol (symbols : List String) (symbol : String) : List String :=
  if symbols.length < Symbol.maxSymbols && !symbols.contains symbol then symbols ++ [symbol]
  else symbols

/-- Extend a span over a later one. -/
def extend (span next : Span) : Span :=
  { span with
    endByte := max span.endByte next.endByte
    endLine := max span.endLine next.endLine
    symbols := next.symbols.foldl addSymbol span.symbols }

/-- Put a span behind others, the last of which comes first: it becomes part of the last one if it
starts on a line of it. -/
def push (merged : List Span) (span : Span) : List Span :=
  match merged with
  | [] => [span]
  | last :: earlier =>
    if span.startLine ≤ last.endLine then last.extend span :: earlier else span :: last :: earlier

/-- Join the spans that share a line with the one before. -/
def mergeAll (spans : List Span) : List Span :=
  (spans.foldl push []).reverse

end Span

/-- Cuts files into chunks at chunkable nodes. -/
structure Chunker where
  parser : TreeParser
  kinds : KindRegistry

namespace Chunker

/-- The tree of a file: parsed if the language is supported, and one node otherwise. -/
def treeOf (chunker : Chunker) (source : List Char) (language : Language) (token : Cancellation) :
    Except ParseError Tree × Cancellation :=
  if chunker.parser.supports language then chunker.parser.parse source language token
  else TreeParser.wholeFile.parse source language token

/-- The spans of the topmost chunkable nodes of the waiting trees, put behind the earlier ones,
which `found` holds in reverse.  The token is asked before each node. -/
def spansFrom (kinds : KindRegistry) (language : Language) (found : List Span)
    (waiting : List Tree) (token : Cancellation) : Except ParseError (List Span) × Cancellation :=
  match waiting with
  | [] => (.ok found.reverse, token)
  | tree :: waiting =>
    match token.poll with
    | (true, token) => (.error .cancelled, token)
    | (false, token) =>
      if kinds.selects language tree.kind then
        spansFrom kinds language (.ofTree tree :: found) waiting token
      else spansFrom kinds language found (tree.children ++ waiting) token
termination_by sizeOf waiting
decreasing_by
  · simp only [List.cons.sizeOf_spec]; omega
  · exact Tree.sizeOf_children_append _ _

/-- The chunk of a span. -/
def chunkOf (source : List Char) (language : Language) (span : Span) : Except ParseError Chunk :=
  match Text.slice? source span.startByte span.endByte with
  | some text =>
    .ok { content := String.ofList text
          startLine := span.startLine
          endLine := span.endLine
          language
          nodeType := span.kind
          symbols := span.symbols }
  | none =>
    .error (.unusable
      s!"node range {span.startByte}..{span.endByte} outside source")

/-- The chunks at the chunkable nodes of a file. -/
def structural (chunker : Chunker) (source : List Char) (language : Language)
    (token : Cancellation) : Except ParseError (List Chunk) × Cancellation :=
  match chunker.treeOf source language token with
  | (.error e, token) => (.error e, token)
  | (.ok tree, token) =>
    match spansFrom chunker.kinds language [] [tree] token with
    | (.error e, token) => (.error e, token)
    | (.ok spans, token) => ((Span.mergeAll spans).mapM (chunkOf source language), token)

/-- The structural chunks of a file, or its line windows if it has none. -/
def chunks (chunker : Chunker) (source : List Char) (language : Language) (size : WindowSize)
    (token : Cancellation) : Except ParseError (List Chunk) × Cancellation :=
  match chunker.structural source language token with
  | (.ok [], token) =>
    match token.poll with
    | (true, token) => (.error .cancelled, token)
    | (false, token) => (.ok (Chunk.windows language size source), token)
  | answer => answer

end Chunker

end CodeIndex
