/-
# The locations a recipe imports

The imports of a recipe can be read off its statements without compiling it. They are listed in the
order in which they are written, those of a namespace at its place, and repeated where they are
repeated. An import without a location asks for nothing.
-/

import RecipeGraph.Recipe

namespace RecipeGraph

/-- The location of an import, if it has one. -/
def Import.locations (source : Import) : List String :=
  if source.location.value.isEmpty then [] else [source.location.value]

mutual

/-- The locations that a statement imports. -/
def Statement.locations : Statement → List String
  | .assignment _ (.level ⟨⟨_, statements, _, _⟩, _⟩) => Statement.allLocations statements
  | .assignment _ (.fetched source) => source.value.locations
  | .level ⟨_, statements, _, _⟩ => Statement.allLocations statements
  | .fetched source => source.locations
  | _ => []
termination_by structural statement => statement

/-- The locations that several statements import. -/
def Statement.allLocations : List (Spanned Statement) → List String
  | [] => []
  | ⟨statement, _⟩ :: rest => statement.locations ++ Statement.allLocations rest
termination_by structural statements => statements

end

/-- The locations that a recipe imports. -/
def Recipe.locations (recipe : Recipe) : List String :=
  Statement.allLocations recipe.statements

end RecipeGraph
