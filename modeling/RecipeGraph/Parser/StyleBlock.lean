/-
# Reading style blocks

A style block stands in curly brackets and holds tags, quoted lines of description and properties,
in any order. Separators may stand between two of them and none is needed. A property value is a
quoted text, or else everything up to the end of the line, a semicolon or the closing bracket, less
the blanks at both ends.
-/

import RecipeGraph.Parser.Gap
import RecipeGraph.Parser.Word
import RecipeGraph.Recipe
import RecipeGraph.Text.Blank

namespace RecipeGraph.Parser

/-- Skips blanks and comments within a line. -/
def inlineGap : Scanner Unit := Scanner.moveBy (Cursor.skipGap isInlineBlank)

/-- Skips blanks, line breaks and comments. -/
def multilineGap : Scanner Unit := Scanner.moveBy (Cursor.skipGap isMultilineBlank)

/-- Skips everything that may separate statements or style entries. -/
def separatorGap : Scanner Unit := Scanner.moveBy (Cursor.skipGap isSeparator)

/-- Reads a reference `#path` to a named style. -/
def tagReference : Scanner (Spanned QualifiedPath) := do
  Scanner.exactly '#'
  qualifiedName

/-- Characters of a property key. -/
def isKeyPart (c : Char) : Bool :=
  c.isAlphanum || c == '-' || c == '_'

/-- Characters of an unquoted property value. -/
def isValuePart (c : Char) : Bool :=
  c != '\n' && c != ';' && c != '\x7d'

/-- Reads a property value that is not quoted. -/
def plainValue : Scanner String := do
  let text ← Scanner.run isValuePart
  return String.ofList (Text.trim text)

/-- Reads a property value. -/
def propertyValue : Scanner String :=
  Scanner.orTry (Spanned.value <$> quoted) plainValue

/-- Reads a property `key: value`. -/
def property : Scanner StyleEntry := do
  let first ← Scanner.one isKeyPart
  let others ← Scanner.run isKeyPart
  inlineGap
  Scanner.exactly ':'
  inlineGap
  let value ← propertyValue
  return .property (String.ofList (first :: others)) value

/-- One item of a style block. -/
inductive StyleItem where
  | tag (path : Spanned QualifiedPath)
  | entry (entry : StyleEntry)

/-- Reads one item of a style block. -/
def styleItem : Scanner StyleItem :=
  Scanner.orTry (StyleItem.tag <$> tagReference) <|
    Scanner.orTry ((fun line => StyleItem.entry (.description line.value)) <$> quoted)
      (StyleItem.entry <$> property)

/-- The tags among the items of a style block. -/
def tagsOf : List StyleItem → List (Spanned QualifiedPath)
  | [] => []
  | .tag path :: rest => path :: tagsOf rest
  | .entry _ :: rest => tagsOf rest

/-- The entries among the items of a style block. -/
def entriesOf : List StyleItem → List StyleEntry
  | [] => []
  | .tag _ :: rest => entriesOf rest
  | .entry entry :: rest => entry :: entriesOf rest

/-- Reads items with separators before each and behind the last, until there are no more. -/
def separatedItems {α : Type} (item : Scanner α) : Scanner (List α) :=
  Scanner.repeated do
    separatorGap
    match ← Scanner.optional item with
    | some value => return .more value
    | none => return .stop

/-- Reads a style in curly brackets. -/
def styleBlock : Scanner StyleBlock := do
  Scanner.exactly '\x7b'
  let items ← separatedItems styleItem
  Scanner.closing '\x7d'
  return ⟨tagsOf items, entriesOf items⟩

/-- Reads a style that follows something on the same line, if there is one. -/
def trailingStyle : Scanner (Option StyleBlock) :=
  Scanner.optional do
    inlineGap
    styleBlock

end RecipeGraph.Parser
