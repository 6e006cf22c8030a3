/-!
# Tables of a TOML document

The values of a TOML document, and the table that it builds up line by line.  While a document is
read, it matters how each table came about: a table may be opened by one header only, a dotted key
may extend only tables that dotted keys have made, and a table that is written inline is complete.

## Main definitions

* `Value` are the values of a document.
* `Item` is an entry of a table that is being built, with the `Origin` of each subtable.
* `Entries.insertDotted` enters a value at a dotted key, `Entries.openTable` and
  `Entries.openElement` open the table of a header, and `Entries.toValue` is the finished table.
-/

namespace CodeIndex.Toml

/-- A value of a document. -/
inductive Value where
  | string (text : String)
  | integer (n : Int)
  /-- A number with a fraction or an exponent, by its bits. -/
  | float (bits : UInt64)
  | boolean (value : Bool)
  /-- A date, a time, or both. -/
  | moment
  | array (items : List Value)
  | table (entries : List (String × Value))

/-- How a table came about. -/
inductive Origin where
  /-- By a header of its own. -/
  | header
  /-- On the way to the table of another header. -/
  | implied
  /-- By a dotted key. -/
  | dotted
deriving DecidableEq, Repr

/-- An entry of a table that is being built. -/
inductive Item where
  | value (value : Value)
  | table (origin : Origin) (entries : List (String × Item))
  /-- The tables that headers in double brackets have opened, the last one first. -/
  | tables (last : List (String × Item)) (earlier : List (List (String × Item)))

/-- The entries of a table that is being built. -/
abbrev Entries := List (String × Item)

namespace Entries

/-- Replace the entry of a key. -/
def replace (entries : Entries) (key : String) (item : Item) : Entries :=
  entries.map fun entry => if entry.1 == key then (key, item) else entry

/-- Enter a value at a dotted key.  The tables on the way may be made by earlier dotted keys, and
the one that the value goes into must be. -/
def insertDotted (value : Value) : (path : List String) → Entries → Option Entries
  | [], _ => none
  | [key], entries =>
    match entries.lookup key with
    | none => some (entries ++ [(key, .value value)])
    | some _ => none
  | key :: next :: rest, entries =>
    match entries.lookup key with
    | none =>
      (insertDotted value (next :: rest) []).map fun made =>
        entries ++ [(key, .table .dotted made)]
    | some (.table .dotted inner) =>
      (insertDotted value (next :: rest) inner).map fun made =>
        entries.replace key (.table .dotted made)
    | some (.table .implied inner) =>
      if rest.isEmpty then none
      else (insertDotted value (next :: rest) inner).map fun made =>
        entries.replace key (.table .implied made)
    | some _ => none

/-- Change the table at a path of keys; a table that is missing on the way is implied, and a list of
tables stands for its last one. -/
def within (change : Entries → Option Entries) : (path : List String) → Entries → Option Entries
  | [], entries => change entries
  | key :: rest, entries =>
    match entries.lookup key with
    | none => (within change rest []).map fun made => entries ++ [(key, .table .implied made)]
    | some (.table origin inner) =>
      (within change rest inner).map fun made => entries.replace key (.table origin made)
    | some (.tables last earlier) =>
      (within change rest last).map fun made => entries.replace key (.tables made earlier)
    | some (.value _) => none

/-- Open the table of a header. -/
def openTable (key : String) (entries : Entries) : Option Entries :=
  match entries.lookup key with
  | none => some (entries ++ [(key, .table .header [])])
  | some (.table .implied inner) => some (entries.replace key (.table .header inner))
  | some _ => none

/-- Open a further table of a list. -/
def openElement (key : String) (entries : Entries) : Option Entries :=
  match entries.lookup key with
  | none => some (entries ++ [(key, .tables [] [])])
  | some (.tables last earlier) => some (entries.replace key (.tables [] (last :: earlier)))
  | some _ => none

end Entries

mutual

/-- The finished value of an entry. -/
def Item.toValue : Item → Value
  | .value v => v
  | .table _ entries => .table (entryValues entries)
  | .tables last earlier => .array (tableValues earlier [.table (entryValues last)])

/-- The finished values of the entries of a table. -/
def entryValues : List (String × Item) → List (String × Value)
  | [] => []
  | (key, item) :: rest => (key, item.toValue) :: entryValues rest

/-- The finished tables of a list that is given in reverse, put before the later ones. -/
def tableValues : List (List (String × Item)) → List Value → List Value
  | [], later => later
  | entries :: earlier, later => tableValues earlier (.table (entryValues entries) :: later)

end

/-- The finished table. -/
def Entries.toValue (entries : Entries) : Value := .table (entryValues entries)

end CodeIndex.Toml
