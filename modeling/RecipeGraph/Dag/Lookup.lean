/-
# Looking up names through levels

A path of several segments leads through nested levels. Its first segment selects a level directly
in this one, and the rest of the path is looked up there. A variable that stands for a level comes
before a level of that name, and among levels of one name the one attached last is meant.
-/

import RecipeGraph.Dag.Basic

namespace RecipeGraph.Dag

/-- The level that the first segment of a path selects. -/
def childFor? (dag : Dag) (segment : String) : Option Dag :=
  match (dag.variableIds.get? segment).bind dag.children.get? with
  | some child => some child
  | none => dag.children.values.reverse.find? fun child => child.name == segment

/-- The element a variable stands for, wherever in the hierarchy it is. -/
def variableAt? : List String → Dag → Option Id
  | [], _ => none
  | [name], dag => dag.variableIds.get? name
  | segment :: next :: rest, dag => (dag.childFor? segment).bind (variableAt? (next :: rest))

/-- The style declared on a variable. -/
def variableStyleAt? : List String → Dag → Option Style
  | [], _ => none
  | [name], dag => (dag.variableStyles.get? name).join
  | segment :: next :: rest, dag => (dag.childFor? segment).bind (variableStyleAt? (next :: rest))

/-- A flattened style. At every level the whole remaining path is first tried as one name. -/
def styleAt? : List String → Dag → Option StyleProperties
  | [], _ => none
  | [name], dag => dag.styles.get? name
  | segment :: next :: rest, dag =>
    match dag.styles.get? (QualifiedPath.joinSegments (segment :: next :: rest)) with
    | some properties => some properties
    | none => (dag.childFor? segment).bind (styleAt? (next :: rest))

/-- The element that the variable at a path stands for. -/
def element? (dag : Dag) (path : QualifiedPath) : Option Id :=
  variableAt? path.segments dag

/-- The style declared on the variable at a path. -/
def variableStyle? (dag : Dag) (path : QualifiedPath) : Option Style :=
  variableStyleAt? path.segments dag

/-- The flattened style at a path. -/
def style? (dag : Dag) (path : QualifiedPath) : Option StyleProperties :=
  styleAt? path.segments dag

/-- The element of this level from which the variable at a path flows. A plain name stands for the
element itself. A longer path reaches into a nested level, which as a whole is the element that an
edge can start at, provided that the path leads to a variable. -/
def producer? (dag : Dag) (path : QualifiedPath) : Option Id :=
  match path.segments with
  | [] => none
  | [name] => dag.variableIds.get? name
  | segment :: next :: rest =>
    match dag.childFor? segment with
    | none => none
    | some child => (variableAt? (next :: rest) child).map fun _ => child.id

end RecipeGraph.Dag
