/-
# The dump of a graph

A dump lists a level line by line: its nodes, its edges, its flattened styles, its style bindings
and its nested levels, each with the style it has, in the order of the registries. What belongs to
a nested level is indented one tab further.
-/

import RecipeGraph.Dag.Basic
import RecipeGraph.Text.Quoted

namespace RecipeGraph

/-- Properties in curly brackets, keys and values in quotes. -/
def StyleProperties.render (properties : StyleProperties) : String :=
  let items := properties.entries.map fun entry =>
    Text.quote entry.1 ++ ": " ++ Text.quote entry.2
  "\x7b" ++ ", ".intercalate items ++ "\x7d"

/-- Tags in square brackets. -/
def renderTags (tags : List QualifiedPath) : String :=
  "[" ++ ", ".intercalate (tags.map QualifiedPath.joined) ++ "]"

/-- The lines that say what is special about the style of an element, indented by it. -/
def Style.lines (style : Style) (indent : String) : List String :=
  (if style.tags.isEmpty then [] else [indent ++ "\tStyleTags: " ++ renderTags style.tags]) ++
    (if style.properties.isEmpty then []
      else [indent ++ "\tStyleMap: " ++ style.properties.render])

namespace Dag

/-- The name of an element of the level, or nothing if it has none. -/
def displayName (dag : Dag) (id : Id) : String :=
  (dag.elementName? id).getD ""

/-- The lines of a node. -/
def nodeLines (indent : String) (node : Node) : List String :=
  (indent ++ "Node: " ++ node.name) :: node.style.lines indent

/-- The lines of an edge. -/
def edgeLines (dag : Dag) (indent : String) (edge : Edge) : List String :=
  (indent ++ "Edge: " ++ dag.displayName edge.source ++ " -(" ++ edge.name ++ ")-> " ++
    dag.displayName edge.target) :: edge.style.lines indent

/-- The lines of everything at a level that is not nested deeper. -/
def ownLines (dag : Dag) (indent : String) : List String :=
  dag.nodes.values.flatMap (nodeLines indent) ++
    dag.edges.values.flatMap (dag.edgeLines indent) ++
    (dag.styles.entries.map fun entry =>
      indent ++ "Style: " ++ entry.1 ++ " " ++ entry.2.render) ++
    dag.bindings.entries.map fun entry =>
      indent ++ "Binding: " ++ entry.1 ++ " " ++ renderTags entry.2

mutual

/-- The lines of a level. -/
def dumpLines : Dag → (indent : String) → List String
  | ⟨id, name, parent, style, nodes, edges, ⟨children⟩, styles, bindings, variableIds,
      variableStyles, imports⟩, indent =>
    ownLines ⟨id, name, parent, style, nodes, edges, ⟨children⟩, styles, bindings, variableIds,
      variableStyles, imports⟩ indent ++ childLines children indent
termination_by structural dag => dag

/-- The lines of nested levels. -/
def childLines : List (Id × Dag) → (indent : String) → List String
  | [], _ => []
  | (_, child) :: rest, indent =>
    (indent ++ "Dag: " ++ child.name) :: child.style.lines indent ++
      dumpLines child (indent ++ "\t") ++ childLines rest indent
termination_by structural children => children

end

/-- The dump of a graph, every line ended by a line break. -/
def dump (dag : Dag) : String :=
  String.join ((dag.dumpLines "").map (· ++ "\n"))

end Dag

end RecipeGraph
