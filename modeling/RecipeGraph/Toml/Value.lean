/-
# Values of a TOML document

A TOML document is a table of values. How a table came about decides what may still be added to it:
a table that a header only leads through may get a header of its own later, one that dotted keys
made or took over may not, and an inline table is complete where it is written.
-/

import RecipeGraph.OrderedMap

namespace RecipeGraph.Toml

/-- How a table came about. -/
inductive TableOrigin where
  /-- A header leads through it. -/
  | implied
  /-- It has a header of its own. -/
  | header
  /-- Dotted keys made it or took it over. -/
  | dotted
  /-- It is written in curly brackets. -/
  | inlined
deriving DecidableEq, Repr

/-- A value. Numbers with a fraction and points in time are recognised and not kept. -/
inductive Value where
  | text (content : String)
  | integer (value : Int)
  | float
  /-- A number that is laid out well but has no value: it is too great, or has other characters
  among its digits. -/
  | unheld
  | boolean (value : Bool)
  | moment
  | array (items : List Value)
  | table (origin : TableOrigin) (entries : List (String × Value))
  /-- An array that grows by one table with every header in double brackets. -/
  | tables (items : List Value)

instance : Inhabited Value := ⟨.moment⟩

/-- The entries of a table. -/
abbrev Entries : Type := List (String × Value)

mutual

/-- Whether all numbers in a value have a value. -/
def Value.isHeld : Value → Bool
  | .unheld => false
  | .array items => areHeld items
  | .tables items => areHeld items
  | .table _ entries => areEntriesHeld entries
  | _ => true

/-- Whether all numbers in some values have a value. -/
def areHeld : List Value → Bool
  | [] => true
  | item :: rest => item.isHeld && areHeld rest

/-- Whether all numbers in a table have a value. -/
def areEntriesHeld : List (String × Value) → Bool
  | [] => true
  | entry :: rest => isEntryHeld entry && areEntriesHeld rest

/-- Whether all numbers in an entry have a value. -/
def isEntryHeld : String × Value → Bool
  | (_, value) => value.isHeld

end

/-- Changes the last one of an array of tables. -/
def changeLast (change : Entries → Option Entries) (items : List Value) : Option (List Value) :=
  match items.getLast? with
  | some (.table origin inner) => do
    let inner ← change inner
    some (items.dropLast ++ [.table origin inner])
  | _ => none

/-- Adds a value under a dotted key. A key may be given only once. Where a header only leads through
a table, dotted keys take it over; the last one of an array of tables they may only lead through. -/
def define (value : Value) : (path : List String) → Entries → Option Entries
  | [], _ => none
  | [key], entries =>
    match OrderedMap.lookup key entries with
    | some _ => none
    | none => some (entries ++ [(key, value)])
  | key :: next :: rest, entries =>
    match OrderedMap.lookup key entries with
    | none => do
      let inner ← define value (next :: rest) []
      some (entries ++ [(key, .table .dotted inner)])
    | some (.table .dotted inner) => do
      let inner ← define value (next :: rest) inner
      some (OrderedMap.write key (.table .dotted inner) entries)
    | some (.table .implied inner) => do
      let inner ← define value (next :: rest) inner
      some (OrderedMap.write key (.table .dotted inner) entries)
    | some (.tables items) =>
      if rest.isEmpty then
        none
      else do
        let items ← changeLast (fun inner => define value (next :: rest) inner) items
        some (OrderedMap.write key (.tables items) entries)
    | some _ => none

/-- Changes the table that a header leads to. Of an array of tables the last one is meant, and
tables that are not there yet come about on the way. -/
def descend (change : Entries → Option Entries) : (path : List String) → Entries → Option Entries
  | [], entries => change entries
  | key :: rest, entries =>
    match OrderedMap.lookup key entries with
    | none => do
      let inner ← descend change rest []
      some (entries ++ [(key, .table .implied inner)])
    | some (.table .inlined _) => none
    | some (.table origin inner) => do
      let inner ← descend change rest inner
      some (OrderedMap.write key (.table origin inner) entries)
    | some (.tables items) => do
      let items ← changeLast (fun inner => descend change rest inner) items
      some (OrderedMap.write key (.tables items) entries)
    | some _ => none

/-- Starts the table of a header. -/
def openTable (key : String) (entries : Entries) : Option Entries :=
  match OrderedMap.lookup key entries with
  | none => some (entries ++ [(key, .table .header [])])
  | some (.table .implied inner) => some (OrderedMap.write key (.table .header inner) entries)
  | some _ => none

/-- Starts one more table of a header in double brackets. -/
def openTables (key : String) (entries : Entries) : Option Entries :=
  match OrderedMap.lookup key entries with
  | none => some (entries ++ [(key, .tables [.table .header []])])
  | some (.tables items) =>
    some (OrderedMap.write key (.tables (items ++ [.table .header []])) entries)
  | some _ => none

end RecipeGraph.Toml
