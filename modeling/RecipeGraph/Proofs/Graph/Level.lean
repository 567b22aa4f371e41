/-
# Levels, their elements and their identifiers

A graph is a tree of levels. What is said of a whole graph is said of every level in it, so this
module gives the tree its induction principle, names the elements of one level and lists the
identifiers that a graph defines at all of its levels. The operations on a level are described by
what they do to these lists.
-/

import RecipeGraph.Dag.Lookup
import RecipeGraph.Dag.Merge
import RecipeGraph.Proofs.Data.OrderedMap

namespace RecipeGraph.Dag

mutual

/-- What holds of a level as soon as it holds of the levels directly in it holds of every level. -/
@[elab_as_elim]
theorem rise {P : Dag → Prop} (step : ∀ dag, (∀ child ∈ dag.children.values, P child) → P dag) :
    ∀ dag, P dag
  | ⟨_, _, _, _, _, _, ⟨children⟩, _, _, _, _, _⟩ => step _ (riseAll step children)
termination_by structural dag => dag

private theorem riseAll {P : Dag → Prop}
    (step : ∀ dag, (∀ child ∈ dag.children.values, P child) → P dag) :
    ∀ (children : List (Id × Dag)), ∀ child ∈ children.map Prod.snd, P child
  | [], _, inside => nomatch inside
  | (_, child) :: rest, _, inside =>
    match List.mem_cons.1 inside with
    | .inl same => same ▸ rise step child
    | .inr later => riseAll step rest _ later
termination_by structural children => children

end

/-- A level is the graph itself, or a level of one of the graphs nested directly in it. -/
inductive HasLevel : Dag → Dag → Prop where
  | self {dag : Dag} : HasLevel dag dag
  | inside {dag child level : Dag} (nested : child ∈ dag.children.values)
    (deeper : HasLevel child level) : HasLevel dag level

theorem HasLevel.trans {dag middle level : Dag} (outer : dag.HasLevel middle)
    (inner : middle.HasLevel level) : dag.HasLevel level := by
  induction outer with
  | self => exact inner
  | inside nested _ step => exact .inside nested (step inner)

/-- What holds of every level holds of the graph itself and of every level of the graphs directly in
it. -/
theorem forall_hasLevel {P : Dag → Prop} {dag : Dag} :
    (∀ level, dag.HasLevel level → P level) ↔
      P dag ∧ ∀ child ∈ dag.children.values, ∀ level, child.HasLevel level → P level := by
  constructor
  · intro all
    exact ⟨all dag .self, fun child nested level deeper => all level (.inside nested deeper)⟩
  · rintro ⟨here, below⟩ level has
    cases has with
    | self => exact here
    | inside nested deeper => exact below _ nested level deeper

/-- The elements of a level: its nodes, and the levels directly in it. -/
def elements (dag : Dag) : List Id :=
  dag.nodes.keys ++ dag.children.keys

theorem mem_elements {dag : Dag} {id : Id} :
    id ∈ dag.elements ↔ id ∈ dag.nodes.keys ∨ id ∈ dag.children.keys :=
  List.mem_append

/-- An edge may start and end at exactly the elements of its level. -/
theorem hasEndpoint_iff {dag : Dag} {id : Id} : dag.hasEndpoint id = true ↔ id ∈ dag.elements := by
  rw [hasEndpoint, Bool.or_eq_true, OrderedMap.contains_iff, OrderedMap.contains_iff, mem_elements]

mutual

/-- The identifiers that a graph defines: of its levels, and of the nodes and edges on them. -/
def ids : Dag → List Id
  | ⟨id, _, _, _, nodes, edges, ⟨children⟩, _, _, _, _, _⟩ =>
    id :: (nodes.keys ++ edges.keys ++ nestedIds children)
termination_by structural dag => dag

/-- The identifiers that nested graphs define. -/
def nestedIds : List (Id × Dag) → List Id
  | [] => []
  | (_, child) :: rest => ids child ++ nestedIds rest
termination_by structural children => children

end

theorem nestedIds_eq_flatMap (children : List (Id × Dag)) :
    nestedIds children = children.flatMap fun entry => entry.2.ids := by
  induction children with
  | nil => rfl
  | cons entry rest step => rw [nestedIds, step, List.flatMap_cons]

/-- The identifiers below the one of the graph itself. -/
def innerIds (dag : Dag) : List Id :=
  dag.nodes.keys ++ dag.edges.keys ++ nestedIds dag.children.entries

theorem ids_eq (dag : Dag) : dag.ids = dag.id :: dag.innerIds := by
  obtain ⟨_, _, _, _, _, _, ⟨_⟩, _, _, _, _, _⟩ := dag
  rfl

theorem id_mem_ids (dag : Dag) : dag.id ∈ dag.ids := by
  rw [ids_eq]
  exact List.mem_cons_self

theorem mem_nestedIds {children : List (Id × Dag)} {id : Id} :
    id ∈ nestedIds children ↔ ∃ child ∈ children.map Prod.snd, id ∈ child.ids := by
  rw [nestedIds_eq_flatMap, List.mem_flatMap]
  constructor
  · rintro ⟨entry, inside, held⟩
    exact ⟨entry.2, List.mem_map_of_mem inside, held⟩
  · rintro ⟨child, inside, held⟩
    obtain ⟨entry, nested, rfl⟩ := List.mem_map.1 inside
    exact ⟨entry, nested, held⟩

theorem ids_subset_of_mem {dag child : Dag} (inside : child ∈ dag.children.values) :
    child.ids ⊆ dag.innerIds := fun _ held =>
  List.mem_append_right _ (mem_nestedIds.2 ⟨child, inside, held⟩)

/-- Where levels are stored under their own identifiers, every element has one of the identifiers
that the graph defines below itself. -/
theorem elements_subset {dag : Dag}
    (keyed : ∀ entry ∈ dag.children.entries, entry.1 = entry.2.id) :
    dag.elements ⊆ dag.innerIds := by
  intro id held
  rcases mem_elements.1 held with node | nested
  · exact List.mem_append_left _ (List.mem_append_left _ node)
  · obtain ⟨⟨key, child⟩, inside, rfl⟩ := List.mem_map.1 nested
    have same : key = child.id := keyed _ inside
    exact List.mem_append_right _
      (mem_nestedIds.2 ⟨child, List.mem_map_of_mem inside, same ▸ child.id_mem_ids⟩)

/-! ### What the operations do to these lists -/

@[simp] theorem ids_withParent (dag : Dag) (parent : Id) : (dag.withParent parent).ids = dag.ids := by
  rw [ids_eq, ids_eq]
  rfl

theorem mem_elements_addNode {dag : Dag} {node : Node} {id : Id} :
    id ∈ (dag.addNode node).elements ↔ id = node.id ∨ id ∈ dag.elements := by
  simp only [mem_elements, addNode, OrderedMap.mem_keys_insert, or_assoc]

theorem mem_elements_attach {dag child : Dag} {id : Id} :
    id ∈ (dag.attach child).elements ↔ id = child.id ∨ id ∈ dag.elements := by
  simp only [mem_elements, attach, OrderedMap.mem_keys_insert, or_left_comm]

/-- Nesting several levels changes the map of nested levels and nothing else. -/
theorem attachAll_eq (dag : Dag) (added : List Dag) :
    dag.attachAll added = { dag with
      children := dag.children.insertAll
        (added.map fun child => (child.id, child.withParent dag.id)) } := by
  induction added generalizing dag with
  | nil =>
      cases dag
      rfl
  | cons child rest step =>
      rw [attachAll, step]
      rfl

theorem children_merge (dag other : Dag) :
    (dag.merge other).children = dag.children.insertAll
      (other.children.values.map fun child => (child.id, child.withParent dag.id)) := by
  rw [merge, attachAll_eq]

theorem nodes_merge (dag other : Dag) : (dag.merge other).nodes = dag.nodes.extend other.nodes := by
  rw [merge, attachAll_eq]

theorem edges_merge (dag other : Dag) : (dag.merge other).edges = dag.edges.extend other.edges := by
  rw [merge, attachAll_eq]

theorem id_merge (dag other : Dag) : (dag.merge other).id = dag.id := by
  rw [merge, attachAll_eq]

theorem name_merge (dag other : Dag) : (dag.merge other).name = dag.name := by
  rw [merge, attachAll_eq]

theorem style_merge (dag other : Dag) : (dag.merge other).style = dag.style := by
  rw [merge, attachAll_eq]

theorem parent_merge (dag other : Dag) : (dag.merge other).parent = dag.parent := by
  rw [merge, attachAll_eq]

/-- A level nested in a merged one was nested there before, or is moved there from the other one. -/
theorem mem_entries_children_merge {dag other : Dag} {entry : Id × Dag}
    (held : entry ∈ (dag.merge other).children.entries) :
    (∃ child ∈ other.children.values, entry = (child.id, child.withParent dag.id)) ∨
      entry ∈ dag.children.entries := by
  rw [children_merge] at held
  refine (OrderedMap.mem_entries_insertAll held).imp_left fun new => ?_
  obtain ⟨child, nested, rfl⟩ := List.mem_map.1 new
  exact ⟨child, nested, rfl⟩

theorem mem_children_merge {dag other child : Dag}
    (held : child ∈ (dag.merge other).children.values) :
    (∃ nested ∈ other.children.values, child = nested.withParent dag.id) ∨
      child ∈ dag.children.values := by
  obtain ⟨key, held⟩ := OrderedMap.mem_values.1 held
  rcases mem_entries_children_merge held with ⟨nested, inside, same⟩ | old
  · exact .inl ⟨nested, inside, congrArg Prod.snd same⟩
  · exact .inr (OrderedMap.mem_values.2 ⟨key, old⟩)

/-- Nested levels stay under their own identifiers when another one is nested or merged in. -/
theorem keyed_attach {dag : Dag} (keyed : ∀ entry ∈ dag.children.entries, entry.1 = entry.2.id)
    (child : Dag) : ∀ entry ∈ (dag.attach child).children.entries, entry.1 = entry.2.id :=
  OrderedMap.keyed_insert keyed (child.withParent dag.id)

theorem keyed_merge {dag : Dag} (keyed : ∀ entry ∈ dag.children.entries, entry.1 = entry.2.id)
    (other : Dag) : ∀ entry ∈ (dag.merge other).children.entries, entry.1 = entry.2.id := by
  intro entry held
  rcases mem_entries_children_merge held with ⟨child, _, rfl⟩ | old
  · rfl
  · exact keyed entry old

/-- A level that is nested in a level may be looked up there under its own identifier. -/
theorem values_keyed {dag child : Dag}
    (keyed : ∀ entry ∈ dag.children.entries, entry.1 = entry.2.id)
    (inside : child ∈ dag.children.values) : child.id ∈ dag.children.keys :=
  OrderedMap.key_mem_keys keyed inside

theorem keys_of_keyed {entries : List (Id × Dag)} (keyed : ∀ entry ∈ entries, entry.1 = entry.2.id) :
    entries.map Prod.fst = entries.map fun entry => entry.2.id :=
  List.map_congr_left keyed

/-- Levels that are moved to another place keep their keys. -/
theorem keys_moved {dag other : Dag}
    (keyed : ∀ entry ∈ other.children.entries, entry.1 = entry.2.id) :
    (other.children.values.map fun child => (child.id, child.withParent dag.id)).map Prod.fst =
      other.children.keys := by
  rw [OrderedMap.keys, keys_of_keyed keyed]
  simp [OrderedMap.values]

theorem mem_elements_merge {dag other : Dag}
    (keyed : ∀ entry ∈ other.children.entries, entry.1 = entry.2.id) {id : Id} :
    id ∈ (dag.merge other).elements ↔ id ∈ dag.elements ∨ id ∈ other.elements := by
  simp only [mem_elements, nodes_merge, children_merge, OrderedMap.extend,
    OrderedMap.mem_keys_insertAll, keys_moved keyed]
  show (id ∈ other.nodes.keys ∨ _) ∨ _ ↔ _
  tauto

/-! ### Look-ups in a level that is moved -/

/-- In which level another one is nested makes no difference to what is looked up there. -/
theorem variableAt?_withParent (segments : List String) (child : Dag) (parent : Id) :
    variableAt? segments (child.withParent parent) = variableAt? segments child := by
  match segments with
  | [] => rfl
  | [_] => rfl
  | _ :: _ :: _ => rfl

theorem variableStyleAt?_withParent (segments : List String) (child : Dag) (parent : Id) :
    variableStyleAt? segments (child.withParent parent) = variableStyleAt? segments child := by
  match segments with
  | [] => rfl
  | [_] => rfl
  | _ :: _ :: _ => rfl

theorem styleAt?_withParent (segments : List String) (child : Dag) (parent : Id) :
    styleAt? segments (child.withParent parent) = styleAt? segments child := by
  match segments with
  | [] => rfl
  | [_] => rfl
  | _ :: _ :: _ => rfl

end RecipeGraph.Dag
