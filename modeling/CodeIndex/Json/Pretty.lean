import CodeIndex.Json.Value

/-!
# JSON for readers

The text of a value over several lines: every item and every member has a line of its own, two
blanks deeper than what it is part of, and a colon is followed by a blank.  Empty arrays and objects
stay on one line.

## Main definitions

* `Value.pretty` is the text.
-/

namespace CodeIndex.Json.Value

/-- A line end and the blanks of a depth. -/
def newLine (depth : Nat) : List Char := '\n' :: List.replicate (2 * depth) ' '

/-- A key with the text of its value. -/
def prettyMember (key text : List Char) : List Char := '"' :: (key ++ ['"', ':', ' '] ++ text)

mutual

/-- The text of a value that is some levels deep. -/
def prettyAt (depth : Nat) : Value → List Char
  | .array (item :: items) =>
    '[' :: (newLine (depth + 1) ++ item.prettyAt (depth + 1) ++ prettyItems (depth + 1) items ++
      newLine depth ++ [']'])
  | .object ((key, value) :: members) =>
    '\x7b' :: (newLine (depth + 1) ++ prettyMember key (value.prettyAt (depth + 1)) ++
      prettyMembers (depth + 1) members ++ newLine depth ++ ['\x7d'])
  | value => value.render

/-- The texts of further items, each behind a comma. -/
def prettyItems (depth : Nat) : List Value → List Char
  | [] => []
  | item :: items => ',' :: (newLine depth ++ item.prettyAt depth ++ prettyItems depth items)

/-- The texts of further members, each behind a comma. -/
def prettyMembers (depth : Nat) : List (List Char × Value) → List Char
  | [] => []
  | (key, value) :: members =>
    ',' :: (newLine depth ++ prettyMember key (value.prettyAt depth) ++ prettyMembers depth members)

end

/-- The text of a value over several lines. -/
def pretty (value : Value) : String := String.ofList (value.prettyAt 0)

end CodeIndex.Json.Value
