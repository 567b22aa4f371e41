/-
# Reading recipes

Every text can be read as a recipe: what is not understood is reported and left out. Read strictly,
a text with such a report is no recipe at all.
-/

import RecipeGraph.Parser.Statement

namespace RecipeGraph.Recipe

open RecipeGraph.Parser

/-- Reads as much of a text as is understood, and reports the rest. -/
def parseLenient (source : String) : Recipe × List Diagnostic :=
  let reply := recipeStatements (.ofText source)
  match reply.outcome with
  | .done statements _ => (⟨statements⟩, reply.findings)
  | _ => (⟨[]⟩, reply.findings)

/-- Reads a text all of which has to be understood. -/
def parse (source : String) : Except ParseError Recipe :=
  let (recipe, found) := parseLenient source
  match (DiagnosticLog.mk found).finish with
  | .ok () => .ok recipe
  | .error failure => .error failure

end RecipeGraph.Recipe
