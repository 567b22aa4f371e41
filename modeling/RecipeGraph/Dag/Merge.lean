/-
# Merging levels

Merging absorbs everything another level holds. Entries of the other level replace entries that
have the same key and keep their places; levels nested in the other one become nested in this one.
The merged level keeps its own identity, name, style and place.
-/

import RecipeGraph.Dag.Basic

namespace RecipeGraph.Dag

/-- Nests several levels in this one, one after the other. -/
def attachAll (dag : Dag) : List Dag → Dag
  | [] => dag
  | child :: rest => (dag.attach child).attachAll rest

/-- Absorbs the elements and registries of another level. -/
def merge (dag other : Dag) : Dag :=
  let joined := { dag with
    nodes := dag.nodes.extend other.nodes
    edges := dag.edges.extend other.edges }
  let nested := joined.attachAll other.children.values
  { nested with
    styles := dag.styles.extend other.styles
    bindings := dag.bindings.extend other.bindings
    variableIds := dag.variableIds.extend other.variableIds
    variableStyles := dag.variableStyles.extend other.variableStyles
    imports := dag.imports.extend other.imports }

end RecipeGraph.Dag
