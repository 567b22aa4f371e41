/-
# Flattening named styles

A named style may refer to other named styles by their tags. It is resolved once, where it is
declared: the properties of each tag that is known there are taken over in order, later ones over
earlier ones, and the properties of its own come last and win. Tags that are not known are left
out and reported. The style of a call, a level or a variable is not resolved: its tags stay
references, and only the entries of its own are gathered.
-/

import RecipeGraph.Dag.Lookup
import RecipeGraph.Recipe

namespace RecipeGraph

/-- Adds one entry of a style block to the properties gathered before it. A property replaces what
was there; a description line is added to it. -/
def StyleEntry.addTo (properties : StyleProperties) : StyleEntry → StyleProperties
  | .property key value => properties.insert key value
  | .description line => properties.appendDescription line

/-- The properties that the entries of a style block amount to. -/
def StyleBlock.ownProperties (block : StyleBlock) : StyleProperties :=
  block.entries.foldl StyleEntry.addTo .empty

/-- The style of a call, a level or a variable; without a style block it says nothing. -/
def elementStyle : Option StyleBlock → Style
  | none => .plain
  | some block => ⟨block.tags.map Spanned.value, block.ownProperties⟩

/-- A named style resolved at a level. -/
structure Flattened where
  properties : StyleProperties
  /-- The tags that are not known at the level. -/
  missing : List (Spanned QualifiedPath)

namespace Flattened

/-- Takes over the properties of one tag, or notes that it is missing. -/
def addTag (dag : Dag) (result : Flattened) (tag : Spanned QualifiedPath) : Flattened :=
  match dag.style? tag.value with
  | some properties => { result with properties := result.properties.extend properties }
  | none => { result with missing := result.missing ++ [tag] }

end Flattened

/-- Resolves a named style by the styles known at a level. -/
def StyleBlock.flatten (block : StyleBlock) (dag : Dag) : Flattened :=
  let inherited := block.tags.foldl (Flattened.addTag dag) ⟨.empty, []⟩
  { inherited with properties := inherited.properties.extend block.ownProperties }

end RecipeGraph
