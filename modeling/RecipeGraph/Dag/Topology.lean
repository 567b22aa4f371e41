/-
# Topological order

The elements of a level can be put into an order in which every edge points forward exactly when
the edges do not run in a circle. A depth-first search along the edges finishes an element after
everything that can be reached from it, so the reversed order of finishing is the only candidate it
needs to offer. A second pass checks the candidate: whatever feeds an element has to stand before
it.
-/

import RecipeGraph.Dag.Basic

namespace RecipeGraph.Dag

/-- The vertices of the search: the nodes, the nested levels, and whatever else the edges mention,
in this order. -/
def vertices (dag : Dag) : List Id :=
  let elements := (OrderedSet.empty.insertAll dag.nodes.keys).insertAll dag.children.keys
  (elements.insertAll (dag.edges.values.flatMap fun edge => [edge.source, edge.target])).members

/-- Where the edges from a vertex lead, each place once. -/
def successors (dag : Dag) (id : Id) : List Id :=
  let leaving := dag.edges.values.filter fun edge => edge.source = id
  (OrderedSet.empty.insertAll (leaving.map Edge.target)).members

/-- Where the edges to a vertex come from, each place once. -/
def predecessors (dag : Dag) (id : Id) : List Id :=
  let entering := dag.edges.values.filter fun edge => edge.target = id
  (OrderedSet.empty.insertAll (entering.map Edge.source)).members

/-- A depth-first search in progress: the vertices not met so far, and those already left for good,
the last one left first. -/
structure Search where
  unseen : List Id
  finished : List Id
deriving DecidableEq, Repr

namespace Search

/-- The search that has met a vertex. -/
def meet (state : Search) (id : Id) : Search :=
  { state with unseen := state.unseen.erase id }

/-- The search that has left a vertex for good. -/
def finish (state : Search) (id : Id) : Search :=
  { state with finished := id :: state.finished }

/-- Visits a vertex that was not met before, and from there everything its edges lead to, the last
edge first. A vertex that leads to itself ends the search. Every visit inside another one has fewer
vertices left to meet, so their number bounds the depth. -/
def visit (next : Id → List Id) : (depth : Nat) → Search → Id → Except Id Search
  | 0, state, _ => .ok state
  | depth + 1, state, id =>
    if id ∉ state.unseen then
      .ok state
    else if id ∈ next id then
      .error id
    else do
      let state ← (next id).reverse.foldlM (visit next depth) (state.meet id)
      return state.finish id

/-- Visits several vertices in turn. -/
def visitAll (next : Id → List Id) (vertices : List Id) : Except Id Search :=
  vertices.foldlM (visit next vertices.length) ⟨vertices, []⟩

end Search

/-- Checks an order from its start: what feeds a vertex has to stand before it. If something does
not, the last such feeder lies on a circle. -/
def checkOrder (before : Id → List Id) (placed : List Id) : List Id → Except Id Unit
  | [] => .ok ()
  | id :: rest =>
    match ((before id).filter fun feeder => feeder ∉ id :: placed).getLast? with
    | some feeder => .error feeder
    | none => checkOrder before (id :: placed) rest

/-- An order of the elements in which every edge points forward. -/
def topologicalOrder (dag : Dag) : Except DagError (List Id) :=
  match Search.visitAll dag.successors dag.vertices with
  | .error id => .error (.cycle dag.name id)
  | .ok state =>
    match checkOrder dag.predecessors [] state.finished with
    | .error id => .error (.cycle dag.name id)
    | .ok () => .ok state.finished

end RecipeGraph.Dag
