/-
# Loaders

A loader finds the texts of recipes by their locations. It knows nothing of chains and graphs; what
it answers depends on the location alone.
-/

import RecipeGraph.Import.Error
import RecipeGraph.OrderedMap

namespace RecipeGraph

/-- Finds the texts of recipes by their locations. -/
abbrev Loader : Type := String → Except ImportError String

namespace Loader

/-- The loader of a table of texts. -/
def ofTable (table : OrderedMap String String) : Loader := fun location =>
  match table.get? location with
  | some source => .ok source
  | none => .error (.notFound location)

end Loader

end RecipeGraph
