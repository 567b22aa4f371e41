/-
# Names, paths and quoted texts

Names are ASCII words. A path is one name or more with a dot, and nothing else, between neighbours;
a dot that no name follows does not belong to the path. A quoted text stands between two equal
quotes on one line and has no escapes. Once its first quote is read there is no going back: without
the second quote reading halts at the end of the line.
-/

import RecipeGraph.Parser.Scanner
import RecipeGraph.QualifiedPath

namespace RecipeGraph.Parser

/-- Characters a name may start with. -/
def isNameStart (c : Char) : Bool :=
  c.isAlpha || c == '_'

/-- Characters a name may go on with. -/
def isNamePart (c : Char) : Bool :=
  c.isAlphanum || c == '_'

/-- Reads a name. -/
def identifier : Scanner (Spanned String) := Scanner.located do
  let first ← Scanner.one isNameStart
  let others ← Scanner.run isNamePart
  return String.ofList (first :: others)

/-- Reads names joined by dots. -/
def qualifiedName : Scanner (Spanned QualifiedPath) := Scanner.located do
  let names ← Scanner.separated identifier (Scanner.exactly '.')
  return ⟨names.map Spanned.value⟩

/-- Reads the rest of a quoted text, up to the quote that closes it. -/
def quotedRest (opened : Nat) (mark : Char) : Scanner String := fun cursor =>
  let (content, stop) := cursor.takeWhile fun c => c != mark && c != '\n'
  match Scanner.exactly mark stop with
  | .done _ behind => .done (String.ofList content) behind
  | _ => .halted opened stop

/-- Reads a text in single or double quotes. -/
def quoted : Scanner (Spanned String) := Scanner.located fun cursor =>
  (do
    let mark ← Scanner.one fun c => c == '"' || c == '\''
    quotedRest cursor.offset mark : Scanner String) cursor

/-- Reads a name and the blanks behind it, if there is one. -/
def leadingName (skip : Cursor → Cursor) : Scanner (Option (Spanned String)) :=
  Scanner.optional do
    let name ← identifier
    Scanner.moveBy skip
    return name

end RecipeGraph.Parser
