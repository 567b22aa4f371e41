/-
# Points in time of a TOML document

A point in time is a date, a time of day, or both with a distance from universal time. Every field
has a fixed number of digits. A day has to be one that its month has in its year.
-/

import RecipeGraph.Toml.Word

namespace RecipeGraph.Toml

open Read

/-- Whether a year has a 29th of February. -/
def isLeapYear (year : Nat) : Bool :=
  year % 4 == 0 && (year % 100 != 0 || year % 400 == 0)

/-- How many days a month has. -/
def daysIn (year month : Nat) : Nat :=
  match month with
  | 2 => if isLeapYear year then 29 else 28
  | 4 | 6 | 9 | 11 => 30
  | _ => 31

/-- Takes a number of exactly `count` digits between two bounds. -/
def field (count least most : Nat) : Read Nat := do
  let digits ← (List.replicate count ()).mapM fun _ => one Char.isDigit
  let value := digits.foldl (fun value c => value * 10 + (c.toNat - '0'.toNat)) 0
  if value < least || most < value then
    failure
  return value

/-- Takes a date. -/
def date : Read Unit := do
  let year ← field 4 0 9999
  exactly '-'
  let month ← field 2 1 12
  exactly '-'
  let _ ← field 2 1 (daysIn year month)

/-- Takes a time of day; the seconds may be missing. -/
def time : Read Unit := do
  let _ ← field 2 0 23
  exactly ':'
  let _ ← field 2 0 59
  if (← peek) == some ':' then
    exactly ':'
    let _ ← field 2 0 60
    if (← peek) == some '.' then
      exactly '.'
      let _ ← one Char.isDigit
      let _ ← run Char.isDigit

/-- Takes the distance from universal time. -/
def zone : Read Unit := do
  match ← one fun c => c == 'Z' || c == 'z' || c == '+' || c == '-' with
  | '+' | '-' =>
    let _ ← field 2 0 23
    exactly ':'
    let _ ← field 2 0 59
  | _ => return ()

/-- Takes a date with a time of day and perhaps a distance from universal time. -/
def dateTime : Read Unit := do
  date
  let _ ← one fun c => c == 'T' || c == 't' || c == ' '
  time
  let _ ← optional zone

/-- Takes a point in time of any kind that fills the word it stands in. -/
def moment : Read Unit := do
  dateTime <|> date <|> time
  if (← peek).any isWordPart then
    failure

end RecipeGraph.Toml
