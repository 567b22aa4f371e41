/-
# What statements add to a level

This module says what the statements of a recipe mean for the level that they are built in, by
rules that follow the syntax and not the steps of the builder. An argument becomes one edge into the
element that it is passed to, or one warning and nothing else; if it is a call, it also becomes a
node, which its own arguments flow into. A statement adds nodes, edges, bindings, nested levels and
warnings. Its arguments are understood in the scope of the statements before it, and what it binds
counts for the statements after it and for no others.

The rules leave open which identifiers the elements have. What imports come to is a parameter.
-/

import RecipeGraph.Diagnostic
import RecipeGraph.Flatten
import RecipeGraph.Proofs.Build.Scope

namespace RecipeGraph

/-! ### Warnings -/

/-- A warning with a code, labelled with one span. -/
structure Diagnostic.Warns (diagnostic : Diagnostic) (code : ErrorCode) (span : Span) : Prop where
  severity : diagnostic.severity = .warning
  code : diagnostic.code = some code
  span : diagnostic.labels.map Label.span = [span]

/-- A warning that a path leads to no variable: one code is for plain names, one for longer paths. -/
def Diagnostic.Misses (diagnostic : Diagnostic) (path : Spanned QualifiedPath) : Prop :=
  diagnostic.Warns (if path.value.isQualified then .unresolvedPath else .undefinedVariable) path.span

/-- A warning that nothing came of an import. -/
def Diagnostic.Fails (diagnostic : Diagnostic) (source : Import) : Prop :=
  ∃ code ∈ [ErrorCode.importFailure, .importCycle, .importDepth],
    diagnostic.Warns code source.location.span

/-! ### Additions -/

/-- What is added to a level, each kind in its order, and the warnings given meanwhile. -/
structure Addition where
  nodes : List Node
  edges : List Edge
  scope : Scope
  warnings : List Diagnostic

namespace Addition

def nothing : Addition := ⟨[], [], .empty, []⟩

def ofNode (node : Node) : Addition := ⟨[node], [], .empty, []⟩

def ofEdges (edges : List Edge) : Addition := ⟨[], edges, .empty, []⟩

def ofBindings (bindings : List Binding) : Addition := ⟨[], [], ⟨bindings, []⟩, []⟩

def ofChild (child : Dag) : Addition := ⟨[], [], ⟨[], [child]⟩, []⟩

def ofWarnings (warnings : List Diagnostic) : Addition := ⟨[], [], .empty, warnings⟩

/-- What is added first, and what is added after it. -/
instance : Append Addition where
  append first later := ⟨first.nodes ++ later.nodes, first.edges ++ later.edges,
    first.scope ++ later.scope, first.warnings ++ later.warnings⟩

theorem append_eq (first later : Addition) :
    first ++ later = ⟨first.nodes ++ later.nodes, first.edges ++ later.edges,
      first.scope ++ later.scope, first.warnings ++ later.warnings⟩ := rfl

@[simp] theorem nodes_append (first later : Addition) :
    (first ++ later).nodes = first.nodes ++ later.nodes := rfl

@[simp] theorem edges_append (first later : Addition) :
    (first ++ later).edges = first.edges ++ later.edges := rfl

@[simp] theorem warnings_append (first later : Addition) :
    (first ++ later).warnings = first.warnings ++ later.warnings := rfl

@[simp] theorem append_nothing (addition : Addition) : addition ++ nothing = addition := by
  simp [append_eq, nothing]

@[simp] theorem nothing_append (addition : Addition) : nothing ++ addition = addition := by
  simp [append_eq, nothing]

theorem append_assoc (first second third : Addition) :
    first ++ second ++ third = first ++ (second ++ third) := by
  simp [append_eq, Scope.append_assoc]

end Addition

/-- A level that has what is added to it, and nothing else. -/
structure Dag.Holds (level : Dag) (addition : Addition) : Prop where
  nodes : level.nodes.values = addition.nodes
  edges : level.edges.values = addition.edges
  scope : addition.scope.Describes level

/-! ### Arguments -/

/-- What has become of an argument. -/
inductive Inflow where
  /-- A call: a node, what became of the arguments of its own, and an edge out of the node. -/
  | call (node : Node) (inflows : List Inflow) (edge : Edge)
  /-- A variable that was found: an edge. -/
  | variable (edge : Edge)
  /-- A variable that was not found: a warning. -/
  | missing (warning : Diagnostic)

namespace Inflow

/-- The edge of an argument into the element that it is passed to. -/
def edge? : Inflow → Option Edge
  | .call _ _ edge => some edge
  | .variable edge => some edge
  | .missing _ => none

/-- The edges of several arguments into the element that they are passed to. -/
def edges (inflows : List Inflow) : List Edge :=
  inflows.filterMap edge?

mutual

/-- What an argument adds apart from its own edge. The edges into a nested call come after whatever
the arguments of that call add. -/
def prepared : Inflow → Addition
  | .call node inflows _ =>
    .ofNode node ++ listPrepared inflows ++ .ofEdges (inflows.filterMap edge?)
  | .variable _ => .nothing
  | .missing warning => .ofWarnings [warning]
termination_by structural inflow => inflow

/-- What several arguments add apart from their own edges. -/
def listPrepared : List Inflow → Addition
  | [] => .nothing
  | inflow :: rest => inflow.prepared ++ listPrepared rest
termination_by structural inflows => inflows

end

end Inflow

mutual

/-- What an argument becomes that is passed to an element. -/
inductive Argument.Becomes (scope : Scope) : (owner : Id) → Argument → Inflow → Prop
  /-- A call is a node of its own. Its edge has no name and says nothing about its looks. -/
  | call {owner id edge : Id} {name : Spanned String} {arguments : List Argument}
      {style : Option StyleBlock} {span : Span} {inflows : List Inflow}
      (taken : Argument.ListBecome scope id arguments inflows) :
      Becomes scope owner (.call ⟨⟨name, arguments, style⟩, span⟩)
        (.call ⟨id, name.value, elementStyle style⟩ inflows ⟨edge, "", id, owner, .plain⟩)
  /-- A variable flows from where the scope says. Its edge is named after the last segment of the
  path and looks as declared on the variable. -/
  | variable {owner source edge : Id} {path : Spanned QualifiedPath}
      (found : scope.source? path.value = some source) :
      Becomes scope owner (.reference path)
        (.variable ⟨edge, path.value.last?.getD "", source, owner,
          (scope.style? path.value).getD .plain⟩)
  | missing {owner : Id} {path : Spanned QualifiedPath} {warning : Diagnostic}
      (absent : scope.source? path.value = none) (reported : warning.Misses path) :
      Becomes scope owner (.reference path) (.missing warning)

/-- What several arguments become that are passed to one element. -/
inductive Argument.ListBecome (scope : Scope) : (owner : Id) → List Argument → List Inflow → Prop
  | nil {owner : Id} : ListBecome scope owner [] []
  | cons {owner : Id} {argument : Argument} {rest : List Argument} {inflow : Inflow}
      {inflows : List Inflow} (first : Argument.Becomes scope owner argument inflow)
      (others : Argument.ListBecome scope owner rest inflows) :
      ListBecome scope owner (argument :: rest) (inflow :: inflows)

end

/-! ### Counting arguments -/

mutual

/-- How many calls there are in an argument, at any depth. -/
def Argument.calls : Argument → Nat
  | .call ⟨⟨_, arguments, _⟩, _⟩ => 1 + Argument.listCalls arguments
  | .reference _ => 0
termination_by structural argument => argument

def Argument.listCalls : List Argument → Nat
  | [] => 0
  | argument :: rest => argument.calls + Argument.listCalls rest
termination_by structural arguments => arguments

end

mutual

/-- How many arguments there are in an argument, at any depth and with itself. -/
def Argument.occurrences : Argument → Nat
  | .call ⟨⟨_, arguments, _⟩, _⟩ => 1 + Argument.listOccurrences arguments
  | .reference _ => 1
termination_by structural argument => argument

def Argument.listOccurrences : List Argument → Nat
  | [] => 0
  | argument :: rest => argument.occurrences + Argument.listOccurrences rest
termination_by structural arguments => arguments

end

mutual

theorem Argument.Becomes.counts {scope : Scope} : ∀ {owner : Id} {argument : Argument}
    {inflow : Inflow}, argument.Becomes scope owner inflow →
    inflow.prepared.nodes.length = argument.calls ∧
      inflow.prepared.edges.length + inflow.edge?.toList.length + inflow.prepared.warnings.length =
        argument.occurrences
  | _, _, _, .call taken => by
      obtain ⟨nodes, edges⟩ := taken.counts
      constructor
      · simp only [Inflow.prepared, Addition.nodes_append, List.length_append, nodes,
          Argument.calls]
        rfl
      · simp only [Inflow.prepared, Addition.edges_append, Addition.warnings_append,
          List.length_append, Argument.occurrences, ← edges]
        simp [Addition.ofNode, Addition.ofEdges, Inflow.edge?, Inflow.edges]
        omega
  | _, _, _, .variable _ => ⟨rfl, rfl⟩
  | _, _, _, .missing _ _ => ⟨rfl, rfl⟩

/-- No argument is passed over, and none counts twice: there are as many nodes as calls, and as many
edges and warnings together as arguments. -/
theorem Argument.ListBecome.counts {scope : Scope} : ∀ {owner : Id} {arguments : List Argument}
    {inflows : List Inflow}, Argument.ListBecome scope owner arguments inflows →
    (Inflow.listPrepared inflows).nodes.length = Argument.listCalls arguments ∧
      (Inflow.listPrepared inflows).edges.length + (Inflow.edges inflows).length +
        (Inflow.listPrepared inflows).warnings.length = Argument.listOccurrences arguments
  | _, _, _, .nil => ⟨rfl, rfl⟩
  | _, _, _, .cons first others => by
      obtain ⟨nodes, edges⟩ := first.counts
      obtain ⟨nodes', edges'⟩ := others.counts
      constructor
      · simp only [Inflow.listPrepared, Addition.nodes_append, List.length_append, nodes, nodes',
          Argument.listCalls]
      · simp only [Inflow.listPrepared, Addition.edges_append, Addition.warnings_append,
          List.length_append, Argument.listOccurrences, Inflow.edges, ← edges, ← edges',
          List.filterMap_cons]
        cases Inflow.edge? _
        · simp
          omega
        · simp
          omega

end

/-! ### Statements -/

/-- The binding of a target to an element. -/
def Target.binding (id : Id) (target : Target) : Binding :=
  ⟨target.name.value, id, target.style.map fun block => elementStyle (some block)⟩

/-- The variables of a level with the styles declared on them. -/
def Dag.boundVariables (level : Dag) : List Binding :=
  List.zipWith (fun named styled => ⟨named.1, named.2, styled.2⟩) level.variableIds.entries
    level.variableStyles.entries

/-- What a level takes over from a graph that is merged into it. -/
def Addition.ofMerged (level : Id) (graph : Dag) : Addition where
  nodes := graph.nodes.values
  edges := graph.edges.values
  scope := ⟨graph.boundVariables, graph.children.values.map fun child => child.withParent level⟩
  warnings := []

mutual

/-- What a right-hand side adds to a level, and the element that it produces if it does. -/
inductive Producer.Yields (gives : String → Dag → Prop) :
    (level : Id) → Scope → Producer → Option Id → Addition → Prop
  | call {level id : Id} {scope : Scope} {name : Spanned String} {arguments : List Argument}
      {style : Option StyleBlock} {span : Span} {inflows : List Inflow}
      (taken : Argument.ListBecome scope id arguments inflows) :
      Producer.Yields gives level scope (.call ⟨⟨name, arguments, style⟩, span⟩) (some id)
        (.ofNode ⟨id, name.value, elementStyle style⟩ ++ Inflow.listPrepared inflows ++
          .ofEdges (Inflow.edges inflows))
  /-- The statements of a namespace see nothing of the level around it, and its arguments see
  nothing of the namespace. -/
  | level {level : Id} {scope : Scope} {name : Option (Spanned String)}
      {statements : List (Spanned Statement)} {arguments : List Argument}
      {style : Option StyleBlock} {span : Span} {inflows : List Inflow} {inner : Addition}
      {child : Dag} (holds : child.Holds inner)
      (built : Statement.ListBring gives child.id .empty statements inner)
      (named : child.name = (name.map Spanned.value).getD "")
      (styled : child.style = elementStyle style) (placed : child.parent = some level)
      (taken : Argument.ListBecome scope child.id arguments inflows) :
      Producer.Yields gives level scope (.level ⟨⟨name, statements, arguments, style⟩, span⟩) (some child.id)
        (Inflow.listPrepared inflows ++ .ofWarnings inner.warnings ++ .ofChild child ++
          .ofEdges (Inflow.edges inflows))
  | fetched {level id : Id} {scope : Scope} {source : Import} {span : Span} {graph : Dag}
      (given : gives source.location.value graph) :
      Producer.Yields gives level scope (.fetched ⟨source, span⟩) (some id) (.ofChild
        ((graph.reidentify id ((source.name.map Spanned.value).getD "")).withParent level))
  | failed {level : Id} {scope : Scope} {source : Import} {span : Span} {warning : Diagnostic}
      (reported : warning.Fails source) :
      Producer.Yields gives level scope (.fetched ⟨source, span⟩) none (.ofWarnings [warning])

/-- What a statement adds to a level. -/
inductive Statement.Brings (gives : String → Dag → Prop) :
    (level : Id) → Scope → Statement → Addition → Prop
  | call {level : Id} {scope : Scope} {made : Call} {span : Span} {produced : Option Id}
      {addition : Addition}
      (placed : Producer.Yields gives level scope (.call ⟨made, span⟩) produced addition) :
      Statement.Brings gives level scope (.call made) addition
  | assignment {level id : Id} {scope : Scope} {targets : List Target} {producer : Producer}
      {addition : Addition} (placed : Producer.Yields gives level scope producer (some id) addition) :
      Statement.Brings gives level scope (.assignment targets producer)
        (addition ++ .ofBindings (targets.map (Target.binding id)))
  /-- An assignment of nothing leaves its variables as they were. -/
  | dropped {level : Id} {scope : Scope} {targets : List Target} {producer : Producer}
      {addition : Addition} (placed : Producer.Yields gives level scope producer none addition) :
      Statement.Brings gives level scope (.assignment targets producer) addition
  | alias {level id : Id} {scope : Scope} {target : Target} {path : Spanned QualifiedPath}
      (found : scope.source? path.value = some id) :
      Statement.Brings gives level scope (.alias target path) (.ofBindings [target.binding id])
  | missingAlias {level : Id} {scope : Scope} {target : Target} {path : Spanned QualifiedPath}
      {warning : Diagnostic} (absent : scope.source? path.value = none)
      (reported : warning.Misses path) :
      Statement.Brings gives level scope (.alias target path) (.ofWarnings [warning])
  | namedStyle {level : Id} {scope : Scope} {name : Spanned String} {block : StyleBlock}
      {warnings : List Diagnostic}
      (reported : ∀ warning ∈ warnings, ∃ span, warning.Warns .undefinedStyleTag span) :
      Statement.Brings gives level scope (.namedStyle name block) (.ofWarnings warnings)
  | styleBinding {level : Id} {scope : Scope} {keyword : Spanned String}
      {tags : List (Spanned QualifiedPath)} :
      Statement.Brings gives level scope (.styleBinding keyword tags) .nothing
  | level {level : Id} {scope : Scope} {opened : Namespace} {span : Span} {produced : Option Id}
      {addition : Addition}
      (placed : Producer.Yields gives level scope (.level ⟨opened, span⟩) produced addition) :
      Statement.Brings gives level scope (.level opened) addition
  | nested {level : Id} {scope : Scope} {source : Import} {span : Span} {produced : Option Id}
      {addition : Addition} (named : source.name.isSome = true)
      (placed : Producer.Yields gives level scope (.fetched ⟨source, span⟩) produced addition) :
      Statement.Brings gives level scope (.fetched source) addition
  | merged {level : Id} {scope : Scope} {source : Import} {graph : Dag}
      (unnamed : source.name = none) (given : gives source.location.value graph) :
      Statement.Brings gives level scope (.fetched source) (.ofMerged level graph)
  | failed {level : Id} {scope : Scope} {source : Import} {warning : Diagnostic}
      (unnamed : source.name = none) (reported : warning.Fails source) :
      Statement.Brings gives level scope (.fetched source) (.ofWarnings [warning])
  | reference {level : Id} {scope : Scope} {path : Spanned QualifiedPath} {warning : Diagnostic}
      (reported : warning.Warns .noEffect path.span) :
      Statement.Brings gives level scope (.reference path) (.ofWarnings [warning])

/-- What statements add one after the other: each is understood in the scope of those before it. -/
inductive Statement.ListBring (gives : String → Dag → Prop) :
    (level : Id) → Scope → List (Spanned Statement) → Addition → Prop
  | nil {level : Id} {scope : Scope} : Statement.ListBring gives level scope [] .nothing
  | cons {level : Id} {scope : Scope} {statement : Statement} {span : Span}
      {rest : List (Spanned Statement)} {addition later : Addition}
      (first : Statement.Brings gives level scope statement addition)
      (others : Statement.ListBring gives level (scope ++ addition.scope) rest later) :
      Statement.ListBring gives level scope (⟨statement, span⟩ :: rest) (addition ++ later)

end

end RecipeGraph
