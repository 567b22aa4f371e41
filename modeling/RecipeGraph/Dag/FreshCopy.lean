/-
# Copies with identifiers of their own

A recipe that is imported twice must not bring the same elements twice. A fresh copy of a level has
new identifiers throughout, and every reference to an element of the level is changed along with the
element: the ends of edges, and what variables stand for. A reference to anything else stays as it
is.
-/

import RecipeGraph.Dag.Merge

namespace RecipeGraph

/-- Which new identifier stands for which old one within a level. -/
abbrev Renaming := OrderedMap Id Id

/-- The new identifier for an old one, or the old one if it has none. -/
def Renaming.apply (moved : Renaming) (id : Id) : Id :=
  (moved.get? id).getD id

namespace Dag

/-- Copies nodes under new identifiers; each copy stands beside the old identifier. -/
def copyNodes : List Node → IdSupply → List (Id × Node) × IdSupply
  | [], supply => ([], supply)
  | node :: rest, supply =>
    let (id, supply) := supply.take
    let (copies, supply) := copyNodes rest supply
    ((node.id, { node with id := id }) :: copies, supply)

/-- Copies edges under new identifiers and moves their ends along. -/
def copyEdges (moved : Renaming) : List Edge → IdSupply → List Edge × IdSupply
  | [], supply => ([], supply)
  | edge :: rest, supply =>
    let (id, supply) := supply.take
    let (copies, supply) := copyEdges moved rest supply
    ({ edge with
        id := id
        source := moved.apply edge.source
        target := moved.apply edge.target } :: copies, supply)

/-- Stores nodes under their own identifiers. -/
def nodesById (nodes : List Node) : OrderedMap Id Node :=
  .ofList (nodes.map fun node => (node.id, node))

/-- Stores edges under their own identifiers. -/
def edgesById (edges : List Edge) : OrderedMap Id Edge :=
  .ofList (edges.map fun edge => (edge.id, edge))

mutual

/-- Copies a level and everything nested in it under new identifiers. -/
def freshCopy : Dag → IdSupply → Dag × IdSupply
  | ⟨_, name, parent, style, nodes, edges, ⟨children⟩, styles, bindings, variableIds, variableStyles,
      imports⟩, supply =>
    let (id, supply) := supply.take
    let (nodeCopies, supply) := copyNodes nodes.values supply
    let (childCopies, supply) := copyChildren children supply
    let moved : Renaming := (OrderedMap.empty.insertAll
      (nodeCopies.map fun copy => (copy.1, copy.2.id))).insertAll
      (childCopies.map fun copy => (copy.1, copy.2.id))
    let (edgeCopies, supply) := copyEdges moved edges.values supply
    let level := { empty id name with
      parent := parent
      style := style
      nodes := nodesById (nodeCopies.map Prod.snd)
      edges := edgesById edgeCopies
      styles := styles
      bindings := bindings
      variableIds := variableIds.mapValues moved.apply
      variableStyles := variableStyles
      imports := imports }
    (level.attachAll (childCopies.map Prod.snd), supply)
termination_by structural dag => dag

/-- Copies nested levels; each copy stands beside the old identifier. -/
def copyChildren : List (Id × Dag) → IdSupply → List (Id × Dag) × IdSupply
  | [], supply => ([], supply)
  | (_, child) :: rest, supply =>
    let (copy, supply) := freshCopy child supply
    let (copies, supply) := copyChildren rest supply
    ((child.id, copy) :: copies, supply)
termination_by structural children => children

end

end Dag

end RecipeGraph
