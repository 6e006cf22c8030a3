import CodeIndex.Grammar.Pattern

/-!
# Building patterns

Short names for the patterns that grammars consist of most of the time: words and signs, leaves,
optional and repeated parts, lists with separators, and the operators of expressions.

A string stands for the word or sign that it spells, so a pattern can be written as the list of its
parts.  Signs are read as they are; an operator of which another one is the beginning is
described by `Operators`, so that the longest sign wins.
-/

namespace CodeIndex.Grammar.Pattern

variable {ρ : Type}

/-- A word or sign that is no node. -/
def word (text : String) : Pattern ρ := .token none false (Scan.whole text.toList)

instance : Coe String (Pattern ρ) := ⟨word⟩

/-- A word or sign with nothing before it. -/
def attachedWord (text : String) : Pattern ρ := .token none true (Scan.whole text.toList)

/-- A word or sign that is a node. -/
def wordLeaf (kind text : String) : Pattern ρ := .token (some kind) false (Scan.whole text.toList)

/-- A token that is a node. -/
def leaf (kind : String) (scan : Scan) : Pattern ρ := .token (some kind) false scan

/-- A token that is a node, with nothing before it. -/
def attachedLeaf (kind : String) (scan : Scan) : Pattern ρ := .token (some kind) true scan

/-- A token that is no node, with nothing before it. -/
def attached (scan : Scan) : Pattern ρ := .token none true scan

/-- A pattern, or nothing. -/
def opt (part : Pattern ρ) : Pattern ρ := .alt [part, .seq []]

/-- A pattern once or more. -/
def many1 (part : Pattern ρ) : Pattern ρ := .seq [part, .many part]

/-- A pattern once or more, with separators. -/
def sepBy1 (separator part : Pattern ρ) : Pattern ρ :=
  .seq [part, .many (.seq [separator, part])]

/-- A pattern any number of times, with separators, of which there may be one more at the end. -/
def sepEndBy (separator part : Pattern ρ) : Pattern ρ :=
  opt (.seq [sepBy1 separator part, opt separator])

/-- A pattern once or more with commas, of which there may be one more at the end. -/
def commaList1 (part : Pattern ρ) : Pattern ρ := .seq [sepBy1 "," part, opt ","]

/-- A pattern any number of times with commas, of which there may be one more at the end. -/
def commaList (part : Pattern ρ) : Pattern ρ := opt (commaList1 part)

/-- The part that names what a node declares. -/
def named (part : Pattern ρ) : Pattern ρ := .role "name" part

/-- A node of some parts. -/
def nodeOf (kind : String) (parts : List (Pattern ρ)) : Pattern ρ := .node kind (.seq parts)

/-- A node of the node before and some parts. -/
def aroundOf (kind : String) (parts : List (Pattern ρ)) : Pattern ρ :=
  .around kind none (.seq parts)

/-- The next token stands on the same line. -/
def sameLine : Pattern ρ := .gap fun gap => !gap.isFresh && !gap.next.rest.isEmpty

/-- The next token stands on another line, or there is none. -/
def otherLine : Pattern ρ := .gap fun gap => gap.isFresh || gap.next.rest.isEmpty

/-- There is no further token. -/
def atEnd : Pattern ρ := .gap fun gap => gap.next.rest.isEmpty

/-- Parts between braces. -/
def braces (parts : List (Pattern ρ)) : Pattern ρ := .seq ["\x7b", .seq parts, "\x7d"]

/-- Parts between parentheses. -/
def parens (parts : List (Pattern ρ)) : Pattern ρ := .seq ["(", .seq parts, ")"]

/-- Parts between brackets. -/
def brackets (parts : List (Pattern ρ)) : Pattern ρ := .seq ["[", .seq parts, "]"]

/-- An operand, and behind it any number of parts that make a node of it. -/
def followed (operand : Pattern ρ) (parts : List (Pattern ρ)) : Pattern ρ :=
  .seq [operand, .many (.alt parts)]

end Pattern

/-- The signs of a language of which some are the beginning of others. -/
structure Operators where
  signs : List (List Char)

namespace Operators

/-- The signs with these spellings, between which there are spaces. -/
def ofString (spellings : String) : Operators := ⟨(spellings.splitOn " ").map String.toList⟩

/-- One of some signs, with spaces between them, that is not the beginning of a longer one. -/
def sign {ρ : Type} (operators : Operators) (wanted : String) : Pattern ρ :=
  .token none false (Scan.longest operators.signs ((wanted.splitOn " ").map String.toList))

/-- Operands with signs between them, grouped from the left. -/
def leftLevel {ρ : Type} (kind : String) (sign operand : Pattern ρ) : Pattern ρ :=
  Pattern.followed operand [Pattern.aroundOf kind [sign, operand]]

/-- Operands with signs of several levels between them, those that bind most tightly first. -/
def leftLevels {ρ : Type} (operators : Operators) (kind : String) (operand : Pattern ρ)
    (levels : List String) : Pattern ρ :=
  levels.foldl (fun operand wanted => leftLevel kind (operators.sign wanted) operand) operand

end Operators

end CodeIndex.Grammar
