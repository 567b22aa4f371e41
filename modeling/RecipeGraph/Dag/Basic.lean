/-
# Dependency graphs

A graph is one level of a compiled recipe. It owns the nodes and edges of that level, the levels
nested in it, and its registries: named styles already flattened, style bindings, the variables with
the elements they stand for, the styles declared on variables, and the locations imported.

An element of a level is a node or a level nested directly in it. Edges run between elements of
their own level: `addEdge` refuses any other edge, and it is the only way to add one.
-/

import RecipeGraph.Id
import RecipeGraph.OrderedSet
import RecipeGraph.Style

namespace RecipeGraph

/-- One call of a recipe. -/
structure Node where
  id : Id
  name : String
  style : Style
deriving DecidableEq, Repr, Inhabited

/-- One argument of a call or a level: what `source` produces flows into `target`. -/
structure Edge where
  id : Id
  name : String
  source : Id
  target : Id
  style : Style
deriving DecidableEq, Repr, Inhabited

/-- One level of a compiled recipe with everything nested in it. -/
structure Dag where
  id : Id
  name : String
  /-- The level that this one is nested in. -/
  parent : Option Id
  style : Style
  nodes : OrderedMap Id Node
  edges : OrderedMap Id Edge
  children : OrderedMap Id Dag
  /-- Named styles, flattened when they were declared. -/
  styles : OrderedMap String StyleProperties
  /-- The tags bound to each keyword. -/
  bindings : OrderedMap String (List QualifiedPath)
  /-- The element that each variable stands for. -/
  variableIds : OrderedMap String Id
  /-- The style declared on each variable, if any. -/
  variableStyles : OrderedMap String (Option Style)
  /-- The locations that this level imports. -/
  imports : OrderedSet String

/-- Why an operation on a level is refused. -/
inductive DagError where
  /-- An edge starts at something that is no element of the level. -/
  | missingSource (edge : String) (endpoint : Id) (level : String)
  /-- An edge ends at something that is no element of the level. -/
  | missingTarget (edge : String) (endpoint : Id) (level : String)
  /-- The edges of the level run in a circle through an element. -/
  | cycle (level : String) (element : Id)
deriving DecidableEq, Repr

namespace DagError

def message : DagError → String
  | .missingSource edge endpoint level =>
    s!"edge `{edge}` starts at `{endpoint}`, which is not an element of dag `{level}`"
  | .missingTarget edge endpoint level =>
    s!"edge `{edge}` ends at `{endpoint}`, which is not an element of dag `{level}`"
  | .cycle level element => s!"dag `{level}` contains a cycle through element `{element}`"

end DagError

namespace Dag

/-- A level with nothing in it, nested in nothing. -/
def empty (id : Id) (name : String) : Dag where
  id := id
  name := name
  parent := none
  style := .plain
  nodes := .empty
  edges := .empty
  children := .empty
  styles := .empty
  bindings := .empty
  variableIds := .empty
  variableStyles := .empty
  imports := .empty

instance : Inhabited Dag := ⟨empty default ""⟩

/-- Says which level this one is nested in. -/
def withParent (dag : Dag) (parent : Id) : Dag :=
  { dag with parent := some parent }

/-- Gives the level a style of its own. -/
def withStyle (dag : Dag) (style : Style) : Dag :=
  { dag with style := style }

/-- Gives the level another identity and name. The levels nested in it follow. -/
def reidentify (dag : Dag) (id : Id) (name : String) : Dag :=
  { dag with id := id, name := name, children := dag.children.mapValues (·.withParent id) }

/-- Adds a node. A node that has the same identifier is replaced. -/
def addNode (dag : Dag) (node : Node) : Dag :=
  { dag with nodes := dag.nodes.insert node.id node }

/-- Whether an identifier belongs to an element of the level: a node, or a level directly in it. -/
def hasEndpoint (dag : Dag) (id : Id) : Bool :=
  dag.nodes.contains id || dag.children.contains id

/-- Adds an edge between two elements of the level. -/
def addEdge (dag : Dag) (edge : Edge) : Except DagError Dag :=
  if !dag.hasEndpoint edge.source then
    .error (.missingSource edge.name edge.source dag.name)
  else if !dag.hasEndpoint edge.target then
    .error (.missingTarget edge.name edge.target dag.name)
  else
    .ok { dag with edges := dag.edges.insert edge.id edge }

/-- Nests a level in this one. -/
def attach (dag : Dag) (child : Dag) : Dag :=
  { dag with children := dag.children.insert child.id (child.withParent dag.id) }

/-- Registers a flattened style. -/
def setStyle (dag : Dag) (name : String) (properties : StyleProperties) : Dag :=
  { dag with styles := dag.styles.insert name properties }

/-- Binds a keyword to style tags. -/
def bindStyles (dag : Dag) (keyword : String) (tags : List QualifiedPath) : Dag :=
  { dag with bindings := dag.bindings.insert keyword tags }

/-- Lets a variable stand for an element. -/
def setVariable (dag : Dag) (name : String) (id : Id) : Dag :=
  { dag with variableIds := dag.variableIds.insert name id }

/-- Records the style declared on a variable, or that there is none. -/
def setVariableStyle (dag : Dag) (name : String) (style : Option Style) : Dag :=
  { dag with variableStyles := dag.variableStyles.insert name style }

/-- Records that the level imports a location. -/
def addImport (dag : Dag) (location : String) : Dag :=
  { dag with imports := dag.imports.insert location }

/-- The name of an element of the level. -/
def elementName? (dag : Dag) (id : Id) : Option String :=
  match dag.nodes.get? id with
  | some node => some node.name
  | none => (dag.children.get? id).map name

end Dag

end RecipeGraph
