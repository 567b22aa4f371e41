/-
# A fresh copy is the original under new identifiers

Copying goes level by level: each level keeps a table of what became of its own elements, copies
what is nested in it before it moves the ends of its edges, and leaves alone what the table does not
know. Where identifiers are unambiguous on every single level, nothing is left alone that should be
moved, and the tables of all levels fit together to one function on places.

Two levels may have used the same identifier, and their copies do not. The function is therefore one
on identifiers, and then a permutation, exactly if every identifier was used once in the whole
graph.
-/

import RecipeGraph.Proofs.Graph.Relabel
import RecipeGraph.Proofs.Graph.Throughout

namespace RecipeGraph

open Relator (BiUnique)

/-- Copies, each made of an item and of something new for it, are made by a function that gives
every key of an item what is new for it. -/
theorem exists_map_of_forall₂ {α β κ γ : Type} [DecidableEq κ] [Inhabited γ] {key : α → κ}
    {made : α → γ → β} {items : List α} {copies : List β} (distinct : (items.map key).Nodup)
    (each : List.Forall₂ (fun item copy => ∃ new, copy = made item new) items copies) :
    ∃ given : κ → γ, copies = items.map fun item => made item (given (key item)) := by
  induction each with
  | nil => exact ⟨fun _ => default, rfl⟩
  | @cons item copy rest copies here _ step =>
      obtain ⟨absent, distinct⟩ := List.nodup_cons.1 distinct
      obtain ⟨new, rfl⟩ := here
      obtain ⟨given, rfl⟩ := step distinct
      refine ⟨Function.update given (key item) new, ?_⟩
      rw [List.map_cons, Function.update_self]
      refine congrArg _ (List.map_congr_left fun other later => ?_)
      have different : key other ≠ key item := fun same =>
        absent (same ▸ List.mem_map_of_mem later)
      rw [Function.update_of_ne different]

/-- Copies that are stored under new keys of their own, all different, make the map with its entries
changed. -/
theorem OrderedMap.ofList_eq_mapEntries {κ κ' ν ν' : Type} [DecidableEq κ'] {map : OrderedMap κ ν}
    {key : ν → κ} {own : ν' → κ'} {renamed : κ → κ'} {made : ν → ν'}
    (keyed : ∀ entry ∈ map.entries, entry.1 = key entry.2)
    (owned : ∀ value ∈ map.values, own (made value) = renamed (key value))
    (distinct : ((map.values.map made).map own).Nodup) :
    OrderedMap.ofList ((map.values.map made).map fun copy => (own copy, copy)) =
      map.mapEntries renamed made := by
  refine congrArg OrderedMap.mk ((entries_ofList_of_nodup distinct).trans ?_)
  rw [values, List.map_map, List.map_map]
  refine List.map_congr_left fun entry held => Prod.ext ?_ rfl
  exact (owned entry.2 (List.mem_map_of_mem held)).trans (congrArg renamed (keyed entry held).symm)

namespace Dag

/-! ### The parts of a copy -/

theorem copyNodes_made (nodes : List Node) (supply : IdSupply) :
    List.Forall₂ (fun node copy => ∃ id, copy = (node.id, { node with id := id })) nodes
      (copyNodes nodes supply).1 := by
  induction nodes generalizing supply with
  | nil => exact .nil
  | cons node rest step => exact .cons ⟨_, rfl⟩ (step supply.take.2)

theorem copyEdges_made (moved : Renaming) (edges : List Edge) (supply : IdSupply) :
    List.Forall₂ (fun edge copy => ∃ id, copy = { edge.rename moved.apply with id := id }) edges
      (copyEdges moved edges supply).1 := by
  induction edges generalizing supply with
  | nil => exact .nil
  | cons edge rest step => exact .cons ⟨_, rfl⟩ (step supply.take.2)

theorem copyChildren_made (children : List (Id × Dag)) (supply : IdSupply)
    (each : ∀ entry ∈ children, ∀ supply, ∃ renamed, (entry.2.freshCopy supply).1 =
      entry.2.relabel renamed) :
    List.Forall₂ (fun entry copy => ∃ renamed, copy = (entry.2.id, entry.2.relabel renamed))
      children (copyChildren children supply).1 := by
  induction children generalizing supply with
  | nil => exact .nil
  | cons entry rest step =>
      obtain ⟨here, later⟩ := List.forall_mem_cons.1 each
      obtain ⟨renamed, same⟩ := here supply
      exact .cons ⟨renamed, congrArg (Prod.mk entry.2.id) same⟩
        (step (entry.2.freshCopy supply).2 later)

theorem copyNodes_nodup (nodes : List Node) (supply : IdSupply) :
    ((copyNodes nodes supply).1.map fun copy => copy.2.id).Nodup := by
  induction nodes generalizing supply with
  | nil => exact List.nodup_nil
  | cons node rest step =>
      refine List.nodup_cons.2 ⟨fun held => ?_, step supply.take.2⟩
      obtain ⟨copy, later, same⟩ := List.mem_map.1 held
      exact supply.between_take.ne ((copyNodes_minted rest supply.take.2).2 copy later) same.symm

theorem copyEdges_nodup (moved : Renaming) (edges : List Edge) (supply : IdSupply) :
    ((copyEdges moved edges supply).1.map Edge.id).Nodup := by
  induction edges generalizing supply with
  | nil => exact List.nodup_nil
  | cons edge rest step =>
      refine List.nodup_cons.2 ⟨fun held => ?_, step supply.take.2⟩
      obtain ⟨copy, later, same⟩ := List.mem_map.1 held
      exact supply.between_take.ne ((copyEdges_minted moved rest supply.take.2).2 copy later)
        same.symm

/-- Copies of nested levels have nothing in common if none of them has anything twice. -/
theorem copyChildren_nodup (children : List (Id × Dag)) (supply : IdSupply)
    (each : ∀ entry ∈ children, ∀ supply, (entry.2.freshCopy supply).1.ids.Nodup) :
    ((copyChildren children supply).1.flatMap fun copy => copy.2.ids).Nodup := by
  induction children generalizing supply with
  | nil => exact List.nodup_nil
  | cons entry rest step =>
      obtain ⟨here, later⟩ := List.forall_mem_cons.1 each
      refine List.nodup_append.2 ⟨here supply, step (entry.2.freshCopy supply).2 later, ?_⟩
      intro id held id' held'
      obtain ⟨copy, inside, deeper⟩ := List.mem_flatMap.1 held'
      exact ((freshCopy_minted entry.2 supply).2 id held).ne
        ((copyChildren_minted rest (entry.2.freshCopy supply).2).2 copy inside id' deeper)

/-- The copies of nested levels are themselves different. -/
theorem copyChildren_roots_nodup (children : List (Id × Dag)) (supply : IdSupply) :
    ((copyChildren children supply).1.map fun copy => copy.2.id).Nodup := by
  induction children generalizing supply with
  | nil => exact List.nodup_nil
  | cons entry rest step =>
      refine List.nodup_cons.2 ⟨fun held => ?_, step (entry.2.freshCopy supply).2⟩
      obtain ⟨copy, later, same⟩ := List.mem_map.1 held
      exact ((freshCopy_minted entry.2 supply).2 _ (id_mem_ids _)).ne
        ((copyChildren_minted rest (entry.2.freshCopy supply).2).2 copy later _ copy.2.id_mem_ids)
        same.symm

/-! ### The whole copy -/

/-- New identifiers for the places of a graph, put together from those of its level and those of
the graphs directly in it. -/
def Place.spread (own : Id) (elements edges : Id → Id) (below : Id → Place → Id) : Place → Id
  | .root => own
  | .element [] id => elements id
  | .edge [] id => edges id
  | .element (key :: way) id => below key (.element way id)
  | .edge (key :: way) id => below key (.edge way id)

/-- A nested graph gets from the whole what its own part of it gives. -/
theorem Place.spread_under {own key : Id} {elements edges : Id → Id} {below : Id → Place → Id}
    (root : below key .root = elements key) :
    (fun place => spread own elements edges below (place.under key)) = below key := by
  funext place
  cases place with
  | root => exact root.symm
  | element way id => rfl
  | edge way id => rfl

section Spread

variable {dag : Dag} {own : Id} {elements edges : Id → Id} {below : Id → Place → Id}

theorem relabel_spread (roots : ∀ child ∈ dag.children.values,
      below child.id .root = elements child.id) :
    dag.relabel (Place.spread own elements edges below) =
      { dag with
        id := own
        nodes := dag.nodes.mapEntries elements (·.rename elements)
        edges := dag.edges.mapEntries edges fun edge =>
          { edge.rename elements with id := edges edge.id }
        children := dag.children.mapEntries elements fun child =>
          (child.relabel (below child.id)).withParent own
        variableIds := dag.variableIds.mapValues elements } := by
  have children : dag.children.mapEntries elements
      (relabelChild (Place.spread own elements edges below)) =
        dag.children.mapEntries elements fun child =>
          (child.relabel (below child.id)).withParent own := by
    refine OrderedMap.mapEntries_congr (fun _ _ => rfl) fun child nested => ?_
    rw [relabelChild, Place.spread_under (roots child nested)]
    rfl
  rw [relabel_eq, ← children]
  rfl

end Spread

theorem id_relabel (renamed : Place → Id) (dag : Dag) :
    (dag.relabel renamed).id = renamed .root := by
  rw [relabel_eq]

section Level

variable {dag : Dag} {nodes : List (Id × Node)} {children : List (Id × Dag)} {edges : List Edge}
  {ofNode ofEdge : Id → Id} {ofChild : Id → Place → Id}

/-- Where no element has the identifier of another one, each is moved to its own copy. -/
theorem movedElements_made (here : dag.Unambiguous)
    (nodes_made : nodes = dag.nodes.values.map fun node =>
      (node.id, { node with id := ofNode node.id }))
    (children_made : children = dag.children.entries.map fun entry =>
      (entry.2.id, entry.2.relabel (ofChild entry.2.id))) :
    (∀ node ∈ dag.nodes.values, (movedElements nodes children).apply node.id = ofNode node.id) ∧
      ∀ child ∈ dag.children.values,
        (movedElements nodes children).apply child.id = ofChild child.id .root := by
  have apart := (List.nodup_append.1 here.elements_distinct).2.2
  have copied {copy : Id × Node} (held : copy ∈ nodes) :
      copy.1 ∈ dag.nodes.keys ∧ copy.2.id = ofNode copy.1 := by
    rw [nodes_made] at held
    obtain ⟨node, inside, rfl⟩ := List.mem_map.1 held
    exact ⟨OrderedMap.key_mem_keys here.nodes_keyed inside, rfl⟩
  have nested {copy : Id × Dag} (held : copy ∈ children) :
      copy.1 ∈ dag.children.keys ∧ copy.2.id = ofChild copy.1 .root := by
    rw [children_made] at held
    obtain ⟨entry, inside, rfl⟩ := List.mem_map.1 held
    exact ⟨values_keyed here.children_keyed (List.mem_map_of_mem inside), id_relabel _ _⟩
  constructor
  · intro node held
    have known : node.id ∈ nodes.map Prod.fst := by
      rw [nodes_made, List.map_map]
      exact List.mem_map.2 ⟨node, held, rfl⟩
    have key := OrderedMap.key_mem_keys here.nodes_keyed held
    rcases @movedElements_apply nodes children _ (.inl known) with
      ⟨copy, inside, same, applied⟩ | ⟨copy, inside, same, _⟩
    · rw [applied, (copied inside).2, same]
    · exact absurd same.symm (apart _ key _ (nested inside).1)
  · intro child held
    have known : child.id ∈ children.map Prod.fst := by
      obtain ⟨entry, inside, rfl⟩ := List.mem_map.1 held
      rw [children_made, List.map_map]
      exact List.mem_map.2 ⟨entry, inside, rfl⟩
    have key := values_keyed here.children_keyed held
    rcases @movedElements_apply nodes children _ (.inr known) with
      ⟨copy, inside, same, _⟩ | ⟨copy, inside, same, applied⟩
    · exact absurd same (apart _ (copied inside).1 _ key)
    · rw [applied, (nested inside).2, same]

/-- A level that is put together from copies of its parts has a new identifier at every place, as
long as no two of the copies have the same one. -/
theorem copied_eq_relabel (here : dag.Unambiguous) {own : Id}
    (nodes_made : nodes = dag.nodes.values.map fun node =>
      (node.id, { node with id := ofNode node.id }))
    (children_made : children = dag.children.entries.map fun entry =>
      (entry.2.id, entry.2.relabel (ofChild entry.2.id)))
    (edges_made : edges = dag.edges.values.map fun edge =>
      { edge.rename (movedElements nodes children).apply with id := ofEdge edge.id })
    (nodes_apart : (nodes.map fun copy => copy.2.id).Nodup)
    (children_apart : (children.map fun copy => copy.2.id).Nodup)
    (edges_apart : (edges.map Edge.id).Nodup) :
    dag.assembled own nodes children edges =
      dag.relabel (Place.spread own (movedElements nodes children).apply ofEdge ofChild) := by
  rw [assembled]
  obtain ⟨moved_node, moved_child⟩ := movedElements_made here nodes_made children_made
  generalize (movedElements nodes children).apply = moved at *
  have node_copies : nodes.map Prod.snd = dag.nodes.values.map (·.rename moved) := by
    rw [nodes_made, List.map_map]
    exact List.map_congr_left fun node held => by
      show { node with id := ofNode node.id } = node.rename moved
      rw [Node.rename, moved_node node held]
  have child_copies : (children.map fun copy => copy.2.withParent own) =
      dag.children.values.map fun child => (child.relabel (ofChild child.id)).withParent own := by
    rw [children_made, OrderedMap.values, List.map_map, List.map_map]
    rfl
  have nodes_stored : nodesById (nodes.map Prod.snd) =
      dag.nodes.mapEntries moved (·.rename moved) := by
    rw [nodesById, node_copies]
    refine OrderedMap.ofList_eq_mapEntries here.nodes_keyed (fun _ _ => rfl) ?_
    rw [← node_copies, List.map_map]
    exact nodes_apart
  have edges_stored : edgesById edges = dag.edges.mapEntries ofEdge fun edge =>
      { edge.rename moved with id := ofEdge edge.id } := by
    rw [edgesById, edges_made]
    refine OrderedMap.ofList_eq_mapEntries here.edges_keyed (fun _ _ => rfl) ?_
    rw [← edges_made]
    exact edges_apart
  have children_stored : OrderedMap.ofList
      ((children.map fun copy => copy.2.withParent own).map fun copy => (copy.id, copy)) =
        dag.children.mapEntries moved fun child =>
          (child.relabel (ofChild child.id)).withParent own := by
    rw [child_copies]
    refine OrderedMap.ofList_eq_mapEntries here.children_keyed (fun child held => ?_) ?_
    · exact (id_relabel _ _).trans (moved_child child held).symm
    · rw [← child_copies, List.map_map]
      exact children_apart
  rw [relabel_spread fun child held => (moved_child child held).symm, nodes_stored, edges_stored,
    children_stored]

end Level

/-- A copy of an unambiguous graph is the graph with a new identifier at every place. -/
theorem exists_freshCopy_eq_relabel {dag : Dag} (clear : dag.UnambiguousThroughout)
    (supply : IdSupply) : ∃ renamed, (dag.freshCopy supply).1 = dag.relabel renamed := by
  induction dag using Dag.rise generalizing supply with
  | step dag below =>
      have here := clear.root
      obtain ⟨nodes_once, children_once, _⟩ := List.nodup_append.1 here.elements_distinct
      obtain ⟨ofNode, nodes⟩ := exists_map_of_forall₂
        ((map_key_values here.nodes_keyed).symm ▸ nodes_once)
        (copyNodes_made dag.nodes.values supply.take.2)
      have children_once' : (dag.children.entries.map fun entry => entry.2.id).Nodup := by
        rw [← keys_of_keyed here.children_keyed]
        exact children_once
      obtain ⟨ofChild, children⟩ := exists_map_of_forall₂ children_once'
        (copyChildren_made dag.children.entries (copyNodes dag.nodes.values supply.take.2).2
          fun entry held => below entry.2 (List.mem_map_of_mem held)
            (clear.child (List.mem_map_of_mem held)))
      have edges_once : (dag.edges.values.map Edge.id).Nodup := by
        rw [map_key_values here.edges_keyed]
        exact here.edges_distinct
      obtain ⟨ofEdge, edges⟩ := exists_map_of_forall₂ edges_once
        (copyEdges_made (movedElements _ _) dag.edges.values (copyChildren dag.children.entries
          (copyNodes dag.nodes.values supply.take.2).2).2)
      rw [freshCopy_eq]
      exact ⟨_, copied_eq_relabel here nodes children edges (copyNodes_nodup _ _)
        (copyChildren_roots_nodup _ _) (copyEdges_nodup _ _ _)⟩

/-! ### New identifiers are different -/

private theorem keys_ofList_of_nodup {ν : Type} {key : ν → Id} {copies : List ν}
    (distinct : (copies.map key).Nodup) :
    (OrderedMap.ofList (copies.map fun copy => (key copy, copy))).keys = copies.map key ∧
      (OrderedMap.ofList (copies.map fun copy => (key copy, copy))).values = copies := by
  rw [OrderedMap.keys, OrderedMap.values, OrderedMap.entries_ofList_of_nodup distinct]
  simp [Function.comp_def]

/-- A level that is put together from copies has their identifiers and its own. -/
theorem ids_copied (dag : Dag) {own : Id} {nodes : List (Id × Node)} {children : List (Id × Dag)}
    {edges : List Edge} (nodes_apart : (nodes.map fun copy => copy.2.id).Nodup)
    (children_apart : (children.map fun copy => copy.2.id).Nodup)
    (edges_apart : (edges.map Edge.id).Nodup) :
    (dag.assembled own nodes children edges).ids =
      own :: ((nodes.map fun copy => copy.2.id) ++ edges.map Edge.id ++
        children.flatMap fun copy => copy.2.ids) := by
  have listed : (nodesById (nodes.map Prod.snd)).keys = nodes.map fun copy => copy.2.id := by
    rw [nodesById, (keys_ofList_of_nodup (by rwa [List.map_map])).1, List.map_map]
    rfl
  have edges_listed : (edgesById edges).keys = edges.map Edge.id :=
    (keys_ofList_of_nodup edges_apart).1
  have nested : (OrderedMap.ofList ((children.map fun copy => copy.2.withParent own).map
      fun copy => (copy.id, copy))).values.flatMap ids =
        children.flatMap fun copy => copy.2.ids := by
    rw [(keys_ofList_of_nodup (by rwa [List.map_map])).2, List.flatMap_map]
    exact List.flatMap_congr fun copy _ => ids_withParent _ _
  rw [ids_eq_flatMap]
  dsimp only [assembled]
  rw [listed, edges_listed, nested]

/-- Whatever the identifiers of a graph are, those of its copy are all different. -/
theorem freshCopy_ids_nodup (dag : Dag) (supply : IdSupply) :
    (dag.freshCopy supply).1.ids.Nodup := by
  induction dag using Dag.rise generalizing supply with
  | step dag below =>
      rw [freshCopy_eq]
      dsimp only
      have nodes_apart := copyNodes_nodup dag.nodes.values supply.take.2
      have nodes_new := copyNodes_minted dag.nodes.values supply.take.2
      generalize copyNodes dag.nodes.values supply.take.2 = nodes at *
      have roots_apart := copyChildren_roots_nodup dag.children.entries nodes.2
      have children_apart := copyChildren_nodup dag.children.entries nodes.2
        fun entry held => below entry.2 (List.mem_map_of_mem held)
      have children_new := copyChildren_minted dag.children.entries nodes.2
      generalize copyChildren dag.children.entries nodes.2 = children at *
      generalize movedElements nodes.1 children.1 = moved
      have edges_apart := copyEdges_nodup moved dag.edges.values children.2
      have edges_new := copyEdges_minted moved dag.edges.values children.2
      generalize copyEdges moved dag.edges.values children.2 = edges at *
      rw [ids_copied dag nodes_apart roots_apart edges_apart]
      -- The supply served the level itself, its nodes, the nested levels and its edges in turn.
      have node_new : ∀ id ∈ nodes.1.map fun copy => copy.2.id,
          IdSupply.Between supply.take.2 nodes.2 id := List.forall_mem_map.2 nodes_new.2
      have edge_new : ∀ id ∈ edges.1.map Edge.id, IdSupply.Between children.2 edges.2 id :=
        List.forall_mem_map.2 edges_new.2
      have child_new : ∀ id ∈ children.1.flatMap fun copy => copy.2.ids,
          IdSupply.Between nodes.2 children.2 id := by
        intro id held
        obtain ⟨copy, inside, deeper⟩ := List.mem_flatMap.1 held
        exact children_new.2 copy inside id deeper
      have later : ∀ id ∈ (nodes.1.map fun copy => copy.2.id) ++ edges.1.map Edge.id ++
          children.1.flatMap fun copy => copy.2.ids, IdSupply.Between supply.take.2 edges.2 id := by
        intro id held
        rcases List.mem_append.1 held with held | child
        · rcases List.mem_append.1 held with node | edge
          · exact (node_new id node).widen (Nat.le_refl _) (children_new.1.trans edges_new.1)
          · exact (edge_new id edge).widen (nodes_new.1.trans children_new.1) (Nat.le_refl _)
        · exact (child_new id child).widen nodes_new.1 edges_new.1
      refine List.nodup_cons.2 ⟨fun held => supply.between_take.apart (later _ held), ?_⟩
      refine List.nodup_append.2 ⟨List.nodup_append.2 ⟨nodes_apart, edges_apart, ?_⟩,
        children_apart, ?_⟩
      · intro id node id' edge
        exact ((node_new id node).widen (Nat.le_refl _) children_new.1).ne (edge_new id' edge)
      · intro id held id' child
        rcases List.mem_append.1 held with node | edge
        · exact (node_new id node).ne (child_new id' child)
        · exact ((child_new id' child).ne (edge_new id edge)).symm

/-! ### Graphs that have been built -/

/-- On no level an edge is stored twice. -/
def EdgesDistinct (dag : Dag) : Prop :=
  ∀ level, dag.HasLevel level → level.edges.Distinct

theorem Built.edgesDistinct {dag : Dag} (built : dag.Built) : dag.EdgesDistinct :=
  fun level has => (built.filed level has).edges

/-- Graphs that answer alike whatever does not ask for identifiers. -/
structure Alike (one other : Dag) : Prop where
  dump : one.dump = other.dump
  nodeNames : one.nodeNames = other.nodeNames
  edgeNamePairs : one.edgeNamePairs = other.edgeNamePairs
  element : ∀ path, (one.element? path).isSome = (other.element? path).isSome
  producer : ∀ path, (one.producer? path).isSome = (other.producer? path).isSome
  variableStyle : ∀ path, one.variableStyle? path = other.variableStyle? path
  style : ∀ path, one.style? path = other.style? path

theorem alike_relabel {dag : Dag} {renamed : Place → Id} (clear : dag.UnambiguousThroughout)
    (apart : dag.TellsApart renamed) : (dag.relabel renamed).Alike dag where
  dump := dump_relabel clear apart
  nodeNames := nodeNames_relabel renamed dag
  edgeNamePairs := edgeNamePairs_relabel clear.root apart
  element := fun path => isSome_variableAt?_relabel clear apart path.segments
  producer := isSome_producer?_relabel clear apart
  variableStyle := fun path => variableStyleAt?_relabel clear apart path.segments
  style := fun path => styleAt?_relabel clear apart path.segments

/-- Some place of a graph has the one identifier before and gets the other one. -/
def Replaces (renamed : Place → Id) (dag : Dag) (old new : Id) : Prop :=
  ∃ place ∈ dag.places, place.label dag.id = old ∧ renamed place = new

/-- A graph whose places were told apart by their identifiers before and are so now has been renamed
by a permutation. -/
theorem exists_relabel_eq_rename {dag : Dag} {renamed : Place → Id}
    (clear : dag.UnambiguousThroughout) (apart : dag.TellsApart renamed)
    (distinct : dag.ids.Nodup) :
    ∃ permutation : Equiv.Perm Id,
      dag.relabel renamed = { dag.rename permutation with parent := dag.parent } := by
  have labels : dag.TellsApart (Place.label dag.id) := fun place held place' held' same =>
    List.inj_on_of_nodup_map (map_label_places dag ▸ distinct) held held' same
  have unique : BiUnique (dag.Replaces renamed) := by
    constructor
    · rintro _ _ _ ⟨place, held, rfl, rfl⟩ ⟨place', held', rfl, same⟩
      exact congrArg _ (apart held held' same.symm)
    · rintro _ _ _ ⟨place, held, rfl, rfl⟩ ⟨place', held', same, rfl⟩
      exact congrArg _ (labels held held' same.symm)
  have finite : {old | ∃ new, dag.Replaces renamed old new}.Finite := by
    refine (List.finite_toSet dag.ids).subset ?_
    rintro _ ⟨_, place, held, rfl, _⟩
    exact map_label_places dag ▸ List.mem_map_of_mem held
  obtain ⟨permutation, follows⟩ := exists_perm_of_biUnique unique finite
  exact ⟨permutation, relabel_eq_rename clear fun place held =>
    (follows _ _ ⟨place, held, rfl, rfl⟩).symm⟩

/-- Where a copy is a renaming of the graph, no two places of the graph had the same identifier: no
two places of the copy have. -/
theorem nodup_ids_of_freshCopy_eq_rename {dag : Dag} {supply : IdSupply} {renamed : Id → Id}
    (same : (dag.freshCopy supply).1 = { dag.rename renamed with parent := dag.parent }) :
    dag.ids.Nodup := by
  have listed : (dag.freshCopy supply).1.ids = dag.ids.map renamed := by
    rw [same, ← ids_rename, ids_eq, ids_eq]
    rfl
  exact List.Nodup.of_map _ (listed ▸ freshCopy_ids_nodup dag supply)

/-- A copy of a graph on each of whose levels the elements have different identifiers, and the
variables stand for elements, is the graph with other identifiers, different ones for different
places and none of them used before. Nothing else can tell the two apart. The copy is the graph
renamed exactly if no two places of the graph had the same identifier. -/
theorem freshCopy_isomorphic {dag : Dag} {supply : IdSupply} (built : dag.Built)
    (distinct : ∀ level, dag.HasLevel level → level.elements.Nodup)
    (bound : ∀ level, dag.HasLevel level → ∀ id ∈ level.variableIds.values, id ∈ level.elements)
    (unused : ∀ id ∈ dag.ids, ¬ supply.Pending id) :
    let copy := (dag.freshCopy supply).1
    (∃ renamed, dag.TellsApart renamed ∧ copy = dag.relabel renamed) ∧
      ((∃ permutation : Equiv.Perm Id,
        copy = { dag.rename permutation with parent := dag.parent }) ↔ dag.ids.Nodup) ∧
      (∀ id ∈ copy.ids, id ∉ dag.ids) ∧ copy.Alike dag := by
  intro copy
  have clear : dag.UnambiguousThroughout := fun level has =>
    ⟨built.consistent level has, distinct level has, built.edgesDistinct level has, bound level has⟩
  have news : copy.ids.Nodup := freshCopy_ids_nodup dag supply
  obtain ⟨renamed, same⟩ := exists_freshCopy_eq_relabel clear supply
  have same : copy = dag.relabel renamed := same
  have apart : dag.TellsApart renamed := fun place held place' held' equal =>
    List.inj_on_of_nodup_map (ids_relabel renamed dag ▸ same ▸ news) held held' equal
  refine ⟨⟨renamed, apart, same⟩, ⟨?_, ?_⟩, ?_, same ▸ alike_relabel clear apart⟩
  · exact fun ⟨_, equal⟩ => nodup_ids_of_freshCopy_eq_rename equal
  · intro once
    rw [same]
    exact exists_relabel_eq_rename clear apart once
  · intro id new old
    obtain ⟨serial, rfl, later, _⟩ := (freshCopy_minted dag supply).2 id new
    exact unused _ old later

/-- A kitchen with a pantry in it. The identifiers of the mill in the pantry, and of the edge from
the pantry to the bread, are given. -/
def kitchen (mill flour : Nat) : Dag :=
  (empty (.ofNat 0) "kitchen").performAll [.addNode ⟨.ofNat 1, "bake", .plain⟩,
    .attach ((empty (.ofNat 2) "pantry").performAll [.addNode ⟨.ofNat mill, "mill", .plain⟩,
      .setVariable "flour" (.ofNat mill)]),
    .addEdge ⟨.ofNat flour, "flour", .ofNat 2, .ofNat 1, .plain⟩,
    .setVariable "bread" (.ofNat 1)]

section Kitchen

variable (mill flour : Nat)

theorem built_kitchen : (kitchen mill flour).Built := by
  have inner : ((empty (.ofNat 2) "pantry").performAll [.addNode ⟨.ofNat mill, "mill", .plain⟩,
      .setVariable "flour" (.ofNat mill)]).Built :=
    (Built.empty _ _).performAll _ (by simp [Operation.graphs])
  refine (Built.empty _ _).performAll _ ?_
  simpa [Operation.graphs] using inner

theorem ids_kitchen : (kitchen mill flour).ids = [0, 1, flour, 2, mill].map Id.ofNat := rfl

/-- On each level of the kitchen identifiers are used once, whatever they are. -/
theorem elements_kitchen (level : Dag) (has : (kitchen mill flour).HasLevel level) :
    level.elements.Nodup ∧ ∀ id ∈ level.variableIds.values, id ∈ level.elements := by
  revert level
  refine forall_hasLevel.2 ⟨⟨?_, ?_⟩, List.forall_mem_singleton.2 (forall_hasLevel.2
    ⟨⟨List.nodup_singleton _, ?_⟩, List.forall_mem_nil _⟩)⟩
  · show [Id.ofNat 1, Id.ofNat 2].Nodup
    decide
  · exact List.forall_mem_singleton.2 List.mem_cons_self
  · exact List.forall_mem_singleton.2 List.mem_cons_self

theorem unused_kitchen : ∀ id ∈ (kitchen mill flour).ids, ¬ IdSupply.start.Pending id := by
  rw [ids_kitchen]
  exact List.forall_mem_map.2 fun number _ pending => pending

end Kitchen

/-- A kitchen in which no identifier is used twice. -/
theorem freshCopy_isomorphic_of_kitchen :
    let kitchen := kitchen 3 4
    let copy := (kitchen.freshCopy .start).1
    kitchen.Built ∧ (∀ level, kitchen.HasLevel level → level.elements.Nodup) ∧
      (∀ level, kitchen.HasLevel level → ∀ id ∈ level.variableIds.values, id ∈ level.elements) ∧
      (∀ id ∈ kitchen.ids, ¬ IdSupply.start.Pending id) ∧ kitchen.ids.Nodup ∧
      (∃ renamed, kitchen.TellsApart renamed ∧ copy = kitchen.relabel renamed) ∧
      (∃ permutation : Equiv.Perm Id,
        copy = { kitchen.rename permutation with parent := kitchen.parent }) ∧
      copy.ids.length = 5 ∧ (∀ id ∈ copy.ids, id ∉ kitchen.ids) ∧
      (copy.element? ⟨["pantry", "flour"]⟩).isSome = true ∧
      copy.edgeNamePairs = [("pantry", "bake")] := by
  intro kitchen copy
  have distinct : ∀ level, kitchen.HasLevel level → level.elements.Nodup :=
    fun level has => (elements_kitchen 3 4 level has).1
  have bound : ∀ level, kitchen.HasLevel level →
      ∀ id ∈ level.variableIds.values, id ∈ level.elements :=
    fun level has => (elements_kitchen 3 4 level has).2
  have once : kitchen.ids.Nodup := by decide +kernel
  obtain ⟨relabelled, renamed, new, alike⟩ :=
    freshCopy_isomorphic (built_kitchen 3 4) distinct bound (unused_kitchen 3 4)
  refine ⟨built_kitchen 3 4, distinct, bound, unused_kitchen 3 4, once, relabelled, renamed.2 once,
    by decide +kernel, new, ?_, ?_⟩
  · rw [alike.element]
    decide +kernel
  · rw [alike.edgeNamePairs]
    decide +kernel

/-- The same kitchen with one identifier for the two nodes, on their two levels, and for the edge
between the levels. What has one identifier there has three in the copy, so the copy is the kitchen
under no renaming of identifiers at all. -/
theorem freshCopy_kitchen_ne_rename :
    let kitchen := kitchen 1 1
    kitchen.Built ∧ (∀ level, kitchen.HasLevel level → level.elements.Nodup) ∧
      (∀ level, kitchen.HasLevel level → ∀ id ∈ level.variableIds.values, id ∈ level.elements) ∧
      (∀ id ∈ kitchen.ids, ¬ IdSupply.start.Pending id) ∧
      ∀ renamed : Id → Id, (kitchen.freshCopy .start).1 ≠
        { kitchen.rename renamed with parent := kitchen.parent } := by
  intro kitchen
  refine ⟨built_kitchen 1 1, fun level has => (elements_kitchen 1 1 level has).1,
    fun level has => (elements_kitchen 1 1 level has).2, unused_kitchen 1 1, fun renamed same => ?_⟩
  have once : kitchen.ids.Nodup := nodup_ids_of_freshCopy_eq_rename same
  exact absurd once (by decide +kernel)

end Dag

end RecipeGraph
