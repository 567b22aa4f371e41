/-
# Questions about a level

Whoever judges a recipe asks how many arguments flow into an element or out of it, how many
variables stand for it, which elements carry a style, and where the graph begins and ends. Each
question concerns one level and none of those nested in it.
-/

import RecipeGraph.Dag.Lookup

namespace RecipeGraph.Dag

/-- How many edges of the level end at an element. -/
def inDegree (dag : Dag) (id : Id) : Nat :=
  dag.edges.values.countP fun edge => edge.target = id

/-- How many edges of the level start at an element. -/
def outDegree (dag : Dag) (id : Id) : Nat :=
  dag.edges.values.countP fun edge => edge.source = id

/-- Counts one more for an element. -/
def countOne (counts : OrderedMap Id Nat) (id : Id) : OrderedMap Id Nat :=
  counts.insert id ((counts.get? id).getD 0 + 1)

/-- For each element that a variable stands for, how many variables do. -/
def variableCounts (dag : Dag) : OrderedMap Id Nat :=
  dag.variableIds.values.foldl countOne .empty

/-- The nodes with a tag that leads to a named style with at least one property. -/
def styleTagged (dag : Dag) : List Node :=
  dag.nodes.values.filter fun node =>
    node.style.tags.any fun tag =>
      match dag.style? tag with
      | some properties => !properties.isEmpty
      | none => false

/-- The nodes into which nothing flows. -/
def sources (dag : Dag) : List Node :=
  dag.nodes.values.filter fun node => dag.inDegree node.id == 0

/-- The nodes out of which nothing flows. -/
def sinks (dag : Dag) : List Node :=
  dag.nodes.values.filter fun node => dag.outDegree node.id == 0

/-- The names of the nodes, sorted by code points. -/
def nodeNames (dag : Dag) : List String :=
  (dag.nodes.values.map Node.name).mergeSort fun one other => decide (one ≤ other)

/-- Whether a pair of names comes no later than another in the sorted order. -/
def pairLe (one other : String × String) : Bool :=
  (compare one.1 other.1).then (compare one.2 other.2) != .gt

/-- The names at both ends of every edge, sorted. -/
def edgeNamePairs (dag : Dag) : List (String × String) :=
  (dag.edges.values.map fun edge =>
    ((dag.elementName? edge.source).getD "", (dag.elementName? edge.target).getD "")).mergeSort
      pairLe

end RecipeGraph.Dag
