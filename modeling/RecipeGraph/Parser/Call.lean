/-
# Reading calls

Calls nest: an argument is a call or a variable. A scanner for arguments is therefore built from
scanners for arguments that stand deeper. Going one level deeper reads at least a name and an
opening bracket, so the number of characters left bounds the depth, and a scanner for that depth
reads whatever is there.
-/

import RecipeGraph.Parser.StyleBlock

namespace RecipeGraph.Parser

/-- Reads one argument and finds out whether another one may follow. -/
def argumentTurn (argument : Scanner Argument) : Scanner (Scanner.Turn Argument) := do
  multilineGap
  match ← Scanner.optional argument with
  | none => return .stop
  | some value =>
    multilineGap
    match ← Scanner.optional (Scanner.exactly ',') with
    | none => return .last value
    | some _ => return .more value

/-- Reads arguments in round brackets, with commas between neighbours. -/
def argumentList (argument : Scanner Argument) : Scanner (List Argument) := do
  Scanner.exactly '('
  let arguments ← Scanner.repeated (argumentTurn argument)
  multilineGap
  Scanner.closing ')'
  return arguments

/-- Reads a call, given how its arguments are read. -/
def callWith (argument : Scanner Argument) : Scanner (Spanned Call) := Scanner.located do
  let name ← identifier
  inlineGap
  let arguments ← argumentList argument
  let style ← trailingStyle
  return ⟨name, arguments, style⟩

/-- Reads an argument in which calls nest to less than the given depth. -/
def argumentWithin : (depth : Nat) → Cursor → Scan Argument
  | 0, _ => .refused
  | depth + 1, cursor =>
    Scanner.orTry (Argument.call <$> callWith fun inner => argumentWithin depth inner)
      (Argument.reference <$> qualifiedName) cursor

/-- Reads an argument. -/
def argument : Scanner Argument := fun cursor =>
  argumentWithin cursor.rest.length cursor

/-- Reads a call. -/
def call : Scanner (Spanned Call) :=
  callWith argument

end RecipeGraph.Parser
