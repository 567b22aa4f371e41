/-
# Graphs with their identifiers renamed

A renaming changes the identifiers of a graph at all levels and nothing else; the order of every map
stays. Graphs that correspond under a one-to-one relation are renamings of each other, and as long
as only finitely many identifiers are concerned, the renaming can be taken to be a permutation of
all identifiers there are.
-/

import Mathlib.SetTheory.Cardinal.Arithmetic
import RecipeGraph.Proofs.Graph.Correspondence

namespace RecipeGraph

open Relator (BiUnique)

/-- Changes the keys and the values of a map and keeps their order. -/
def OrderedMap.mapEntries {κ κ' ν ν' : Type} (key : κ → κ') (value : ν → ν')
    (map : OrderedMap κ ν) : OrderedMap κ' ν' :=
  ⟨map.entries.map (Prod.map key value)⟩

/-- A map that another one corresponds to is what becomes of that one. -/
theorem OrderedMap.Corresponds.eq_mapEntries {κ κ' ν ν' : Type} {keyed : κ → κ' → Prop}
    {valued : ν → ν' → Prop} {map : OrderedMap κ ν} {other : OrderedMap κ' ν'}
    (related : Corresponds keyed valued map other) (key : κ → κ') (value : ν → ν')
    (keys : ∀ one two, keyed one two → key one = two)
    (values : ∀ one ∈ map.values, ∀ two, valued one two → value one = two) :
    map.mapEntries key value = other := by
  have same : Corresponds (fun one two => key one = two) (fun one two => value one = two) map
      other := related.imp keys values
  obtain ⟨entries⟩ := map
  obtain ⟨entries'⟩ := other
  change List.Forall₂ _ entries entries' at same
  refine congrArg OrderedMap.mk ?_
  rw [← List.forall₂_eq_eq_eq, List.forall₂_map_left_iff]
  exact same.imp fun _ _ both => Prod.ext both.1 both.2

attribute [ext] Node Edge

def Node.rename (renamed : Id → Id) (node : Node) : Node :=
  { node with id := renamed node.id }

def Edge.rename (renamed : Id → Id) (edge : Edge) : Edge :=
  { edge with
    id := renamed edge.id
    source := renamed edge.source
    target := renamed edge.target }

namespace Dag

mutual

/-- Renames the identifiers of a graph, at all levels. -/
def rename (renamed : Id → Id) : Dag → Dag
  | ⟨id, name, parent, style, nodes, edges, ⟨children⟩, styles, bindings, variableIds,
      variableStyles, imports⟩ =>
    ⟨renamed id, name, parent.map renamed, style, nodes.mapEntries renamed (·.rename renamed),
      edges.mapEntries renamed (·.rename renamed), ⟨renameAll renamed children⟩, styles,
      bindings, variableIds.mapValues renamed, variableStyles, imports⟩
termination_by structural dag => dag

/-- Renames the identifiers of nested graphs, their keys included. -/
def renameAll (renamed : Id → Id) : List (Id × Dag) → List (Id × Dag)
  | [] => []
  | (key, child) :: rest => (renamed key, rename renamed child) :: renameAll renamed rest
termination_by structural children => children

end

theorem renameAll_eq_map (renamed : Id → Id) (children : List (Id × Dag)) :
    renameAll renamed children = children.map (Prod.map renamed (rename renamed)) := by
  induction children with
  | nil => rfl
  | cons entry rest step => exact congrArg _ step

theorem rename_eq (renamed : Id → Id) (dag : Dag) :
    dag.rename renamed =
      { dag with
        id := renamed dag.id
        parent := dag.parent.map renamed
        nodes := dag.nodes.mapEntries renamed (·.rename renamed)
        edges := dag.edges.mapEntries renamed (·.rename renamed)
        children := dag.children.mapEntries renamed (·.rename renamed)
        variableIds := dag.variableIds.mapValues renamed } := by
  obtain ⟨_, _, _, _, _, _, ⟨children⟩, _, _, _, _, _⟩ := dag
  rw [rename, renameAll_eq_map]
  rfl

theorem size_nodes_rename (renamed : Id → Id) (dag : Dag) :
    (dag.rename renamed).nodes.size = dag.nodes.size := by
  rw [rename_eq]
  exact List.length_map _

theorem size_children_rename (renamed : Id → Id) (dag : Dag) :
    (dag.rename renamed).children.size = dag.children.size := by
  rw [rename_eq]
  exact List.length_map _

/-- A renaming that follows a relation makes of a graph whatever corresponds to it. -/
theorem Corresponds.eq_rename {R : Id → Id → Prop} {dag other : Dag} {renamed : Id → Id}
    (follows : ∀ id id', R id id' → renamed id = id') (related : dag.Corresponds R other)
    (placed : Option.Rel R dag.parent other.parent) : dag.rename renamed = other := by
  induction dag using Dag.rise generalizing other with
  | step dag below =>
      have level := related.level
      have parents : dag.parent.map renamed = other.parent := by
        generalize dag.parent = parent at placed
        generalize other.parent = parent' at placed
        cases placed with
        | none => rfl
        | some same => exact congrArg some (follows _ _ same)
      have nodes := level.nodes.eq_mapEntries renamed (·.rename renamed) follows
        fun node _ node' both => Node.ext (follows _ _ both.id) both.name both.style
      have edges := level.edges.eq_mapEntries renamed (·.rename renamed) follows
        fun edge _ edge' both => Edge.ext (follows _ _ both.id) both.name
          (follows _ _ both.source) (follows _ _ both.target) both.style
      have bound := level.variableIds.eq_mapEntries (fun name => name) renamed (fun _ _ same => same)
        fun _ _ => follows _
      have children := related.children.eq_mapEntries renamed (·.rename renamed) follows
        fun child nested child' both => below child nested both.inside both.placed
      rw [rename_eq]
      cases other
      rw [Dag.mk.injEq]
      exact ⟨follows _ _ level.id, level.name, parents, level.style, nodes, edges, children,
        level.styles, level.bindings, bound, level.variableStyles, level.imports⟩

end Dag

instance : Infinite Id :=
  .of_injective Id.minted fun _ _ => Id.minted.inj

theorem IdSupply.finite_between (start stop : IdSupply) : {id | Between start stop id}.Finite := by
  refine ((Set.finite_lt_nat stop.next).image Id.minted).subset ?_
  rintro id ⟨serial, rfl, _, before⟩
  exact ⟨serial, before, rfl⟩

/-- A one-to-one relation that concerns only finitely many identifiers is part of a permutation. -/
theorem exists_perm_of_biUnique {R : Id → Id → Prop} (unique : BiUnique R)
    (finite : {id | ∃ id', R id id'}.Finite) :
    ∃ permutation : Equiv.Perm Id, ∀ id id', R id id' → permutation id = id' := by
  choose partner held using fun id : {id | ∃ id', R id id'} => id.2
  have injective : Function.Injective partner := by
    intro one two same
    exact Subtype.ext (unique.1 (held one) (same ▸ held two))
  have small : Cardinal.mk {id | ∃ id', R id id'} < Cardinal.mk Id :=
    (Cardinal.lt_aleph0_iff_set_finite.2 finite).trans_le (Cardinal.aleph0_le_mk Id)
  obtain ⟨permutation, agrees⟩ :=
    Cardinal.extend_function_of_lt ⟨partner, injective⟩ small ⟨.refl Id⟩
  refine ⟨permutation, fun id id' related => ?_⟩
  exact (agrees ⟨id, id', related⟩).trans (unique.2 (held ⟨id, id', related⟩) related)

end RecipeGraph
