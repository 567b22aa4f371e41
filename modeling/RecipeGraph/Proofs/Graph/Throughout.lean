/-
# What holds on every level of a graph

Much of what a graph keeps is said of one level at a time: no registry holds a key twice, every name
is a name. Such a property is kept by an operation on the whole graph as soon as it is kept on the
level that is worked on, provided that it does not ask in which level another one is nested. A copy
is made level by level, so there it is enough to look at one level and its own copy.

No registry of a graph that has been built holds anything twice.
-/

import RecipeGraph.Proofs.Data.Extension
import RecipeGraph.Proofs.Graph.Consistent

namespace RecipeGraph.Dag

/-- Every level of the graph has a property. -/
def Throughout (P : Dag → Prop) (dag : Dag) : Prop :=
  ∀ level, dag.HasLevel level → P level

namespace Throughout

variable {P : Dag → Prop} {dag other changed : Dag}

theorem root (whole : dag.Throughout P) : P dag :=
  whole dag .self

theorem child (whole : dag.Throughout P) (nested : other ∈ dag.children.values) :
    other.Throughout P := fun level deeper => whole level (.inside nested deeper)

theorem intro (here : P dag) (below : ∀ child ∈ dag.children.values, child.Throughout P) :
    dag.Throughout P :=
  forall_hasLevel.2 ⟨here, below⟩

/-- A change to a level that leaves alone what is nested in it. -/
theorem change (whole : dag.Throughout P) (here : P changed)
    (children : changed.children = dag.children) : changed.Throughout P :=
  .intro here fun _ nested => whole.child (children ▸ nested)

section Moving

variable (moves : ∀ {level : Dag}, P level → ∀ parent, P (level.withParent parent))

include moves

theorem withParent (whole : dag.Throughout P) (parent : Id) :
    (dag.withParent parent).Throughout P :=
  whole.change (moves whole.root parent) rfl

theorem attach (whole : dag.Throughout P) (inside : other.Throughout P)
    (here : P (dag.attach other)) : (dag.attach other).Throughout P := by
  refine .intro here fun child held => ?_
  rcases OrderedMap.mem_values_insert held with rfl | old
  · exact inside.withParent moves dag.id
  · exact whole.child old

theorem merge (whole : dag.Throughout P) (inside : other.Throughout P)
    (here : P (dag.merge other)) : (dag.merge other).Throughout P := by
  refine .intro here fun child held => ?_
  rcases mem_children_merge held with ⟨nested, inner, rfl⟩ | old
  · exact (inside.child inner).withParent moves dag.id
  · exact whole.child old

theorem reidentify (whole : dag.Throughout P) (id : Id) (name : String)
    (here : P (dag.reidentify id name)) : (dag.reidentify id name).Throughout P := by
  refine .intro here fun child held => ?_
  obtain ⟨old, inside, rfl⟩ := List.mem_map.1 (OrderedMap.values_mapValues _ _ ▸ held)
  exact (whole.child inside).withParent moves id

theorem freshCopy (copies : ∀ level : Dag, P level → ∀ supply, P (level.freshCopy supply).1)
    (whole : dag.Throughout P) (supply : IdSupply) : (dag.freshCopy supply).1.Throughout P := by
  induction dag using Dag.rise generalizing supply with
  | step dag below =>
      refine .intro (copies dag whole.root supply) fun child held => ?_
      rw [freshCopy_eq] at held
      obtain ⟨copy, inside, rfl⟩ := List.mem_map.1 (OrderedMap.mem_values_ofList held)
      obtain ⟨entry, old, supply', copied⟩ := copyChildren_copies inside
      have nested : entry.2 ∈ dag.children.values := List.mem_map_of_mem old
      rw [copied]
      exact (below entry.2 nested (whole.child nested) supply').withParent moves _

end Moving

end Throughout

/-! ### Registries -/

/-- No map of the level holds a key twice, and nested levels are kept under their own
identifiers. -/
structure Mapped (dag : Dag) : Prop where
  nodes : dag.nodes.Distinct
  edges : dag.edges.Distinct
  children : dag.children.Distinct
  styles : dag.styles.Distinct
  bindings : dag.bindings.Distinct
  variableIds : dag.variableIds.Distinct
  variableStyles : dag.variableStyles.Distinct
  children_keyed : ∀ entry ∈ dag.children.entries, entry.1 = entry.2.id

/-- No registry of the level holds anything twice. -/
structure Filed (dag : Dag) : Prop extends Mapped dag where
  imports : dag.imports.Distinct

theorem Mapped.merge {dag : Dag} (mapped : dag.Mapped) (other : Dag) :
    (dag.merge other).Mapped := by
  refine ⟨?_, ?_, ?_, ?_, ?_, ?_, ?_, keyed_merge mapped.children_keyed other⟩ <;>
    rw [Dag.merge, attachAll_eq]
  · exact mapped.nodes.insertAll _
  · exact mapped.edges.insertAll _
  · exact mapped.children.insertAll _
  · exact mapped.styles.insertAll _
  · exact mapped.bindings.insertAll _
  · exact mapped.variableIds.insertAll _
  · exact mapped.variableStyles.insertAll _

namespace Filed

variable {dag : Dag}

theorem empty (id : Id) (name : String) : (Dag.empty id name).Filed :=
  ⟨⟨.nil, .nil, .nil, .nil, .nil, .nil, .nil, nofun⟩, .nil⟩

theorem withParent (filed : dag.Filed) (parent : Id) : (dag.withParent parent).Filed :=
  { filed with }

theorem merge (filed : dag.Filed) (other : Dag) : (dag.merge other).Filed := by
  refine ⟨filed.toMapped.merge other, ?_⟩
  rw [Dag.merge, attachAll_eq]
  exact filed.imports.insertAll _

theorem freshCopy (filed : dag.Filed) (supply : IdSupply) : (dag.freshCopy supply).1.Filed := by
  rw [freshCopy_eq]
  exact { filed with
    nodes := OrderedMap.distinct_empty.insertAll _
    edges := OrderedMap.distinct_empty.insertAll _
    children := OrderedMap.distinct_empty.insertAll _
    variableIds := filed.variableIds.mapValues _
    children_keyed := fun _ held => (OrderedMap.mem_entries_ofList held).2 }

theorem reidentify (filed : dag.Filed) (id : Id) (name : String) :
    (dag.reidentify id name).Filed := by
  refine { filed with
    children := filed.children.mapValues _
    children_keyed := fun entry held => ?_ }
  obtain ⟨old, inside, rfl⟩ := List.mem_map.1 held
  exact filed.children_keyed old inside

end Filed

/-- Whatever is done with a graph, its registries hold nothing twice afterwards. -/
theorem Throughout.filed_perform {dag : Dag} (filed : dag.Throughout Filed) (operation : Operation)
    (given : ∀ other ∈ operation.graphs, other.Throughout Filed) :
    (dag.perform operation).2.Throughout Filed := by
  have here := filed.root
  cases operation with
  | withParent parent => exact filed.withParent Filed.withParent parent
  | withStyle style => exact filed.change { here with } rfl
  | reidentify id name => exact filed.reidentify Filed.withParent id name (here.reidentify id name)
  | addNode node => exact filed.change { here with nodes := here.nodes.insert _ _ } rfl
  | addEdge edge =>
      rw [Dag.perform]
      cases added : dag.addEdge edge with
      | ok changed =>
          obtain ⟨_, _, rfl⟩ := addEdge_ok added
          exact filed.change { here with edges := here.edges.insert _ _ } rfl
      | error reason => exact filed
  | attach child =>
      exact filed.attach Filed.withParent (given child List.mem_cons_self) { here with
        children := here.children.insert _ _
        children_keyed := keyed_attach here.children_keyed child }
  | merge other =>
      exact filed.merge Filed.withParent (given other List.mem_cons_self) (here.merge other)
  | freshCopy supply => exact .freshCopy Filed.withParent (fun _ => Filed.freshCopy) filed supply
  | setStyle name properties =>
      exact filed.change { here with styles := here.styles.insert _ _ } rfl
  | bindStyles keyword tags =>
      exact filed.change { here with bindings := here.bindings.insert _ _ } rfl
  | setVariable name id =>
      exact filed.change { here with variableIds := here.variableIds.insert _ _ } rfl
  | setVariableStyle name style =>
      exact filed.change { here with variableStyles := here.variableStyles.insert _ _ } rfl
  | addImport location => exact filed.change { here with imports := here.imports.insert _ } rfl

/-- However a graph is built, no registry of it holds anything twice. -/
theorem Built.filed {dag : Dag} (built : dag.Built) : dag.Throughout Filed := by
  induction built with
  | empty id name => exact .intro (.empty id name) nofun
  | perform _ _ step given => exact step.filed_perform _ given
  | child _ nested step => exact step.child nested

end RecipeGraph.Dag
