/-
# Reading TOML documents

A document is read line by line. A line is empty, gives a key a value, or is a header that says
where the lines behind it belong. Values nest in arrays and inline tables, within which lines may
break almost anywhere.
-/

import RecipeGraph.Toml.Moment
import RecipeGraph.Toml.Number

namespace RecipeGraph.Toml

open Read

/-- Takes a value that is a word. -/
def wordValue : Read Value :=
  (do
    moment
    return .moment) <|> do
  let word ← wholeWord
  if word = "true".toList then
    return .boolean true
  else if word = "false".toList then
    return .boolean false
  else
    match number? word with
    | some value => return value
    | none => failure

/-- Takes a value that has no parts. -/
def simpleValue : Read Value := do
  match ← peek with
  | some '"' | some '\'' => return .text (← string)
  | _ => wordValue

/-- Takes the items of an array up to its closing bracket, given how an item is read. -/
def arrayRest (value : Read Value) : (bound : Nat) → Read (List Value)
  | 0 => failure
  | bound + 1 => do
    trivia
    if (← peek) == some ']' then
      exactly ']'
      return []
    else
      let item ← value
      trivia
      match ← one fun c => c == ',' || c == ']' with
      | ',' => return item :: (← arrayRest value bound)
      | _ => return [item]

/-- Takes a key, an equals sign and a value, with a gap on both sides of the sign. -/
def assignment (gap : Read Unit) (value : Read Value) : Read (List String × Value) := do
  let path ← key
  gap
  exactly '='
  gap
  return (path, ← value)

/-- Takes the entries of an inline table up to its closing bracket, given how a value is read. -/
def inlineRest (value : Read Value) : (bound : Nat) → Entries → Read Entries
  | 0, _ => failure
  | bound + 1, entries => do
    trivia
    if (← peek) == some '\x7d' then
      exactly '\x7d'
      return entries
    else
      let (path, item) ← assignment trivia value
      match define item path entries with
      | none => failure
      | some entries =>
        trivia
        match ← one fun c => c == ',' || c == '\x7d' with
        | ',' => inlineRest value bound entries
        | _ => return entries

/-- Takes a value in which arrays and inline tables nest only as deep as there is room for. -/
def valueWithin : (room : Nat) → Read Value
  | 0 => simpleValue
  | room + 1 => fun text =>
    (do
      match ← peek with
      | some '[' =>
        exactly '['
        return .array (← bounded (arrayRest fun inner => valueWithin room inner))
      | some '\x7b' =>
        exactly '\x7b'
        let entries ← bounded fun bound =>
          inlineRest (fun inner => valueWithin room inner) bound []
        return .table .inlined entries
      | _ => simpleValue : Read Value) text

/-- Takes a value. -/
def value : Read Value :=
  valueWithin maxNesting

/-- A document as far as it is read: its table, and the path of the header that is in force. -/
structure Draft where
  root : Entries
  header : List String

/-- Takes the keys of a header. -/
def headerPath : Read (List String) := do
  blanks
  key

/-- Takes a header and starts its table. -/
def header (draft : Draft) : Read Draft := do
  exactly '['
  let double ← optional (exactly '[')
  let path ← headerPath
  exactly ']'
  if double.isSome then
    exactly ']'
  let start := if double.isSome then openTables else openTable
  match descend (start (path.getLastD "")) path.dropLast draft.root with
  | some root => return ⟨root, path⟩
  | none => failure

/-- Takes one line that is not empty. -/
def line (draft : Draft) : Read Draft := do
  if (← peek) == some '[' then
    header draft
  else
    let (path, item) ← assignment blanks value
    match descend (define item path) draft.header draft.root with
    | some root => return { draft with root := root }
    | none => failure

/-- Takes all lines that are left. -/
def lines : (bound : Nat) → Draft → Read Draft
  | 0, _ => failure
  | bound + 1, draft => do
    trivia
    if (← peek).isNone then
      return draft
    else
      let draft ← line draft
      lineEnd
      lines bound draft

/-- Drops the mark that says how a text is encoded. -/
def dropByteOrderMark : List Char → List Char
  | '\ufeff' :: rest => rest
  | text => text

/-- The entries of the table that a text describes, if it is a TOML document. -/
def parse (text : String) : Option Entries :=
  let text := dropByteOrderMark text.toList
  match lines (text.length + 1) ⟨[], []⟩ text with
  | some (draft, _) => some draft.root
  | none => none

end RecipeGraph.Toml
