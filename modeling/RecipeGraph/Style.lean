/-
# Styles

A style is a list of tags, which refer to named styles, and a map of properties of its own.
Property maps keep the order in which their keys first came; the last value written wins. One key is
special: description lines are gathered under it, one line each.
-/

import RecipeGraph.OrderedMap
import RecipeGraph.QualifiedPath

namespace RecipeGraph

/-- Property names with their values. -/
abbrev StyleProperties := OrderedMap String String

namespace StyleProperties

/-- The key under which description lines are gathered. -/
def descriptionKey : String := "description"

/-- Adds a line to the description, after a line break if there is a description already. -/
def appendDescription (properties : StyleProperties) (line : String) : StyleProperties :=
  match properties.get? descriptionKey with
  | some text => properties.insert descriptionKey (text ++ "\n" ++ line)
  | none => properties.insert descriptionKey line

end StyleProperties

/-- What is said about the looks of a node, an edge, a variable or a level. -/
structure Style where
  tags : List QualifiedPath
  properties : StyleProperties
deriving DecidableEq, Repr

namespace Style

/-- The style that says nothing. -/
def plain : Style := ⟨[], .empty⟩

instance : Inhabited Style := ⟨plain⟩

/-- Whether the style says nothing. -/
def isEmpty (style : Style) : Bool :=
  style.tags.isEmpty && style.properties.isEmpty

end Style

end RecipeGraph
