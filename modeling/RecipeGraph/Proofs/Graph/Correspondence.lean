/-
# Graphs that are equal up to their identifiers

Compiling the same recipe twice gives two graphs with different identifiers and nothing else
different. Two graphs correspond under a relation of identifiers when they agree part by part, in
the order of every map, wherever one has an identifier the other has a related one. If the relation
is one-to-one, one graph is the other with its identifiers renamed.

Where a graph is nested is not part of the correspondence of the graph itself, but of the level that
holds it: a graph keeps corresponding when it is moved somewhere else.
-/

import RecipeGraph.Proofs.Graph.Identity

namespace RecipeGraph

open Relator (BiUnique LeftUnique RightUnique)

section Optional

variable {α β γ : Type} {r : α → β → Prop} {one : Option α} {two : Option β}

theorem optionRel_imp {s : α → β → Prop} (related : Option.Rel r one two)
    (wider : ∀ a b, r a b → s a b) : Option.Rel s one two := by
  cases related with
  | none => exact .none
  | some held => exact .some (wider _ _ held)

theorem optionRel_flip (related : Option.Rel r one two) : Option.Rel (flip r) two one := by
  cases related with
  | none => exact .none
  | some held => exact .some held

theorem optionRel_comp {s : β → γ → Prop} {three : Option γ} (related : Option.Rel r one two)
    (related' : Option.Rel s two three) : Option.Rel (Relation.Comp r s) one three := by
  cases related with
  | none =>
      cases related' with
      | none => exact .none
  | some held =>
      cases related' with
      | some held' => exact .some ⟨_, held, held'⟩

end Optional

/-- The same node up to its identifier. -/
structure Node.Corresponds (R : Id → Id → Prop) (node other : Node) : Prop where
  id : R node.id other.id
  name : node.name = other.name
  style : node.style = other.style

/-- The same edge up to its identifier and those of its ends. -/
structure Edge.Corresponds (R : Id → Id → Prop) (edge other : Edge) : Prop where
  id : R edge.id other.id
  name : edge.name = other.name
  source : R edge.source other.source
  target : R edge.target other.target
  style : edge.style = other.style

namespace Dag

/-- Two levels agree in everything but what is nested in them. -/
structure LevelCorresponds (R : Id → Id → Prop) (dag other : Dag) : Prop where
  id : R dag.id other.id
  name : dag.name = other.name
  style : dag.style = other.style
  nodes : dag.nodes.Corresponds R (Node.Corresponds R) other.nodes
  edges : dag.edges.Corresponds R (Edge.Corresponds R) other.edges
  styles : dag.styles = other.styles
  bindings : dag.bindings = other.bindings
  variableIds : dag.variableIds.Corresponds Eq R other.variableIds
  variableStyles : dag.variableStyles = other.variableStyles
  imports : dag.imports = other.imports

mutual

/-- Two graphs agree up to their identifiers, which are related. -/
def Corresponds (R : Id → Id → Prop) : Dag → Dag → Prop
  | ⟨id, name, parent, style, nodes, edges, ⟨children⟩, styles, bindings, variableIds,
      variableStyles, imports⟩, other =>
    LevelCorresponds R ⟨id, name, parent, style, nodes, edges, ⟨children⟩, styles, bindings,
      variableIds, variableStyles, imports⟩ other ∧
      NestedCorrespond R children other.children.entries
termination_by structural dag => dag

/-- Two lists of nested graphs agree, and so does where they say they are nested. -/
def NestedCorrespond (R : Id → Id → Prop) : List (Id × Dag) → List (Id × Dag) → Prop
  | [], others => others = []
  | (key, child) :: rest, others =>
    ∃ key' child' rest', others = (key', child') :: rest' ∧ R key key' ∧
      Option.Rel R child.parent child'.parent ∧ Corresponds R child child' ∧
      NestedCorrespond R rest rest'
termination_by structural children => children

end

/-- What holds of two nested graphs of corresponding levels. -/
structure ChildCorresponds (R : Id → Id → Prop) (child other : Dag) : Prop where
  placed : Option.Rel R child.parent other.parent
  inside : Corresponds R child other

private theorem nestedCorrespond_iff {R : Id → Id → Prop} {children others : List (Id × Dag)} :
    NestedCorrespond R children others ↔
      OrderedMap.Corresponds R (ChildCorresponds R) ⟨children⟩ ⟨others⟩ := by
  show _ ↔ List.Forall₂ _ children others
  induction children generalizing others with
  | nil => rw [NestedCorrespond, List.forall₂_nil_left_iff]
  | cons entry rest step =>
      rw [NestedCorrespond, List.forall₂_cons_left_iff]
      constructor
      · rintro ⟨key', child', rest', rfl, keys, placed, inside, later⟩
        exact ⟨(key', child'), rest', ⟨keys, placed, inside⟩, step.1 later, rfl⟩
      · rintro ⟨⟨key', child'⟩, rest', ⟨keys, placed, inside⟩, later, rfl⟩
        exact ⟨key', child', rest', rfl, keys, placed, inside, step.2 later⟩

theorem corresponds_iff {R : Id → Id → Prop} {dag other : Dag} :
    Corresponds R dag other ↔ LevelCorresponds R dag other ∧
      dag.children.Corresponds R (ChildCorresponds R) other.children := by
  obtain ⟨_, _, _, _, _, _, ⟨children⟩, _, _, _, _, _⟩ := dag
  rw [Corresponds, nestedCorrespond_iff]

namespace Corresponds

variable {R S : Id → Id → Prop} {dag other : Dag}

theorem level (related : Corresponds R dag other) : LevelCorresponds R dag other :=
  (corresponds_iff.1 related).1

theorem children (related : Corresponds R dag other) :
    dag.children.Corresponds R (ChildCorresponds R) other.children :=
  (corresponds_iff.1 related).2

/-- Where the first graph is nested does not matter. -/
@[simp] theorem withParent_left_iff {parent : Id} :
    Corresponds R (dag.withParent parent) other ↔ Corresponds R dag other := by
  rw [corresponds_iff, corresponds_iff]
  exact and_congr_left' ⟨fun ⟨id, name, style, nodes, edges, styles, bindings, ids, rest, imports⟩ =>
    ⟨id, name, style, nodes, edges, styles, bindings, ids, rest, imports⟩,
    fun ⟨id, name, style, nodes, edges, styles, bindings, ids, rest, imports⟩ =>
    ⟨id, name, style, nodes, edges, styles, bindings, ids, rest, imports⟩⟩

/-- Where the second graph is nested does not matter. -/
@[simp] theorem withParent_right_iff {parent : Id} :
    Corresponds R dag (other.withParent parent) ↔ Corresponds R dag other := by
  rw [corresponds_iff, corresponds_iff]
  exact and_congr_left' ⟨fun ⟨id, name, style, nodes, edges, styles, bindings, ids, rest, imports⟩ =>
    ⟨id, name, style, nodes, edges, styles, bindings, ids, rest, imports⟩,
    fun ⟨id, name, style, nodes, edges, styles, bindings, ids, rest, imports⟩ =>
    ⟨id, name, style, nodes, edges, styles, bindings, ids, rest, imports⟩⟩

/-! ### Laws of the correspondence -/

/-- Graphs that correspond under a relation do so under a wider one. -/
theorem mono (related : Corresponds R dag other) (wider : ∀ id id', R id id' → S id id') :
    Corresponds S dag other := by
  induction dag using Dag.rise generalizing other with
  | step dag below =>
      have level := related.level
      refine corresponds_iff.2 ⟨⟨wider _ _ level.id, level.name, level.style, ?_, ?_, level.styles,
        level.bindings, ?_, level.variableStyles, level.imports⟩, ?_⟩
      · exact level.nodes.imp wider fun _ _ _ both => ⟨wider _ _ both.id, both.name, both.style⟩
      · exact level.edges.imp wider fun _ _ _ both =>
          ⟨wider _ _ both.id, both.name, wider _ _ both.source, wider _ _ both.target, both.style⟩
      · exact level.variableIds.imp (fun _ _ same => same) fun _ _ => wider _
      · exact related.children.imp wider fun child nested _ both =>
          ⟨optionRel_imp both.placed wider, below child nested both.inside⟩

/-- What the relation says of the identity of a sound level itself does not matter for anything else
on that level. -/
private theorem level_reidentify (sound : dag.Sound) (related : LevelCorresponds R dag other)
    (inner : ∀ id ∈ dag.innerIds, ∀ id', R id id' → S id id') {id : Id} (root : S id other.id)
    (name : String) (parent : Option Id) :
    LevelCorresponds S (dag.reidentify id name) { other with name := name, parent := parent } := by
  have elements : ∀ id ∈ dag.elements, ∀ id', R id id' → S id id' := fun id held =>
    inner id (elements_subset sound.children_keyed held)
  refine ⟨root, rfl, related.style, ?_, ?_, related.styles, related.bindings, ?_,
    related.variableStyles, related.imports⟩
  · have nodes : ∀ id ∈ dag.nodes.keys, ∀ id', R id id' → S id id' := fun id held =>
      elements id (mem_elements.2 (.inl held))
    refine related.nodes.imp_of_mem nodes fun node held node' both => ?_
    exact ⟨nodes _ (OrderedMap.key_mem_keys sound.nodes_keyed held) _ both.id, both.name, both.style⟩
  · have edges : ∀ id ∈ dag.edges.keys, ∀ id', R id id' → S id id' := fun id held =>
      inner id (List.mem_append_left _ (List.mem_append_right _ held))
    refine related.edges.imp_of_mem edges fun edge held edge' both => ?_
    obtain ⟨source, target⟩ := sound.edges_between edge held
    exact ⟨edges _ (OrderedMap.key_mem_keys sound.edges_keyed held) _ both.id, both.name,
      elements _ source _ both.source, elements _ target _ both.target, both.style⟩
  · exact related.variableIds.imp (fun _ _ same => same) fun id held =>
      elements id (sound.variables_bound id held)

/-- Of a relation under which a sound graph corresponds to another one, only what it says of the
identifiers of that graph matters. -/
theorem mono_of_mem (sound : dag.SoundThroughout) (related : Corresponds R dag other)
    (wider : ∀ id ∈ dag.ids, ∀ id', R id id' → S id id') : Corresponds S dag other := by
  induction dag using Dag.rise generalizing other with
  | step dag below =>
      have inner : ∀ id ∈ dag.innerIds, ∀ id', R id id' → S id id' := fun id held =>
        wider id (ids_eq dag ▸ List.mem_cons_of_mem _ held)
      have root := wider _ dag.id_mem_ids
      have level := level_reidentify sound.root related.level inner (root _ related.level.id) dag.name
        other.parent
      refine corresponds_iff.2 ⟨{ level with name := related.level.name }, ?_⟩
      refine related.children.imp_of_mem (fun id held => inner id ?_) fun child nested child' both => ?_
      · exact elements_subset sound.root.children_keyed (mem_elements.2 (.inr held))
      · refine ⟨?_, below child nested (sound.child nested) both.inside fun id held =>
          inner id (ids_subset_of_mem nested held)⟩
        have placed := both.placed
        rw [sound.root.children_placed child nested] at placed ⊢
        generalize child'.parent = parent at placed ⊢
        cases placed with
        | some same => exact .some (root _ same)

/-- A sound graph may take on another identity, if that one is related to the identity of the other
graph. -/
theorem reidentify_left (sound : dag.SoundThroughout) (unique : RightUnique R)
    (related : Corresponds R dag other) (inner : ∀ id ∈ dag.innerIds, ∀ id', R id id' → S id id')
    {id : Id} (root : S id other.id) (name : String) (parent : Option Id) :
    Corresponds S (dag.reidentify id name) { other with name := name, parent := parent } := by
  refine corresponds_iff.2 ⟨level_reidentify sound.root related.level inner root name parent, ?_⟩
  have children : dag.children.Corresponds S
      (fun child child' => ChildCorresponds S (child.withParent id) child') other.children := by
    refine related.children.imp_of_mem (fun key held => inner key ?_) fun child nested child' both => ?_
    · exact elements_subset sound.root.children_keyed (mem_elements.2 (.inr held))
    · refine ⟨?_, withParent_left_iff.2 (both.inside.mono_of_mem (sound.child nested) fun key held =>
        inner key (ids_subset_of_mem nested held))⟩
      have placed := both.placed
      rw [sound.root.children_placed child nested] at placed
      generalize child'.parent = parent at placed ⊢
      cases placed with
      | some same =>
          rw [unique same related.level.id]
          exact .some root
  show List.Forall₂ _ (dag.children.entries.map _) other.children.entries
  rw [List.forall₂_map_left_iff]
  exact children

theorem flip (related : Corresponds R dag other) : Corresponds (flip R) other dag := by
  induction dag using Dag.rise generalizing other with
  | step dag below =>
      have level := related.level
      refine corresponds_iff.2 ⟨⟨level.id, level.name.symm, level.style.symm, ?_, ?_,
        level.styles.symm, level.bindings.symm, ?_, level.variableStyles.symm, level.imports.symm⟩,
        ?_⟩
      · exact level.nodes.flip (fun _ _ held => held) fun _ _ _ both =>
          ⟨both.id, both.name.symm, both.style.symm⟩
      · exact level.edges.flip (fun _ _ held => held) fun _ _ _ both =>
          ⟨both.id, both.name.symm, both.source, both.target, both.style.symm⟩
      · exact level.variableIds.flip (fun _ _ same => same.symm) fun _ _ _ held => held
      · exact related.children.flip (fun _ _ held => held) fun child nested _ both =>
          ⟨optionRel_flip both.placed, below child nested both.inside⟩

theorem comp {last : Dag} (related : Corresponds R dag other) (related' : Corresponds S other last) :
    Corresponds (Relation.Comp R S) dag last := by
  induction dag using Dag.rise generalizing other last with
  | step dag below =>
      have level := related.level
      have level' := related'.level
      refine corresponds_iff.2 ⟨⟨⟨_, level.id, level'.id⟩, level.name.trans level'.name,
        level.style.trans level'.style, ?_, ?_, level.styles.trans level'.styles,
        level.bindings.trans level'.bindings, ?_, level.variableStyles.trans level'.variableStyles,
        level.imports.trans level'.imports⟩, ?_⟩
      · exact level.nodes.comp level'.nodes (fun _ _ _ one two => ⟨_, one, two⟩)
          fun _ _ _ _ one two => ⟨⟨_, one.id, two.id⟩, one.name.trans two.name,
            one.style.trans two.style⟩
      · exact level.edges.comp level'.edges (fun _ _ _ one two => ⟨_, one, two⟩)
          fun _ _ _ _ one two => ⟨⟨_, one.id, two.id⟩, one.name.trans two.name,
            ⟨_, one.source, two.source⟩, ⟨_, one.target, two.target⟩, one.style.trans two.style⟩
      · exact level.variableIds.comp level'.variableIds (fun _ _ _ => Eq.trans)
          fun _ _ _ _ one two => ⟨_, one, two⟩
      · exact related.children.comp related'.children (fun _ _ _ one two => ⟨_, one, two⟩)
          fun child nested _ _ one two =>
            ⟨optionRel_comp one.placed two.placed, below child nested one.inside two.inside⟩

/-- The identifiers that two corresponding graphs define are related one by one. -/
theorem ids (related : Corresponds R dag other) : List.Forall₂ R dag.ids other.ids := by
  induction dag using Dag.rise generalizing other with
  | step dag below =>
      have level := related.level
      rw [ids_eq, ids_eq, innerIds, innerIds, nestedIds_eq_flatMap, nestedIds_eq_flatMap]
      refine .cons level.id (List.rel_append (List.rel_append level.nodes.keys level.edges.keys) ?_)
      have children : dag.children.Corresponds R (fun child child' => List.Forall₂ R child.ids
          child'.ids) other.children :=
        related.children.imp (fun _ _ held => held) fun child nested _ both =>
          below child nested both.inside
      exact List.rel_flatMap children fun _ _ both => both.2

/-! ### What corresponding graphs have in common -/

theorem elements (related : Corresponds R dag other) :
    List.Forall₂ R dag.elements other.elements :=
  List.rel_append related.level.nodes.keys related.children.keys

theorem mem_elements_iff (unique : BiUnique R) (related : Corresponds R dag other) {id id' : Id}
    (same : R id id') : id ∈ dag.elements ↔ id' ∈ other.elements :=
  List.rel_mem unique same related.elements

theorem hasEndpoint_eq (unique : BiUnique R) (related : Corresponds R dag other) {id id' : Id}
    (same : R id id') : dag.hasEndpoint id = other.hasEndpoint id' := by
  rw [Bool.eq_iff_iff, hasEndpoint_iff, hasEndpoint_iff]
  exact related.mem_elements_iff unique same

theorem ids_nodup (unique : BiUnique R) (related : Corresponds R dag other)
    (distinct : dag.ids.Nodup) : other.ids.Nodup :=
  (List.rel_nodup unique related.ids).1 distinct

private theorem keyed {ν : Type} {valued : ν → ν → Prop} {map map' : OrderedMap Id ν} {key : ν → Id}
    (unique : BiUnique R) (related : map.Corresponds R valued map')
    (keys : ∀ value value', valued value value' → R (key value) (key value'))
    (stored : ∀ entry ∈ map.entries, entry.1 = key entry.2) :
    ∀ entry ∈ map'.entries, entry.1 = key entry.2 := by
  intro entry' held
  obtain ⟨entry, inside, here, value⟩ := OrderedMap.exists_related_of_mem related held
  exact unique.2 here (stored entry inside ▸ keys _ _ value)

private theorem root_sound (unique : BiUnique R) (related : Corresponds R dag other)
    (sound : dag.Sound) : other.Sound := by
  have level := related.level
  have edges {edge' : Edge} (held : edge' ∈ other.edges.values) :
      ∃ edge ∈ dag.edges.values, edge.Corresponds R edge' :=
    OrderedMap.exists_related_of_mem level.edges.values held
  refine ⟨⟨?_, ?_, ?_, ?_⟩, ?_, ?_, ?_, ?_⟩
  · intro edge' held
    obtain ⟨edge, inside, both⟩ := edges held
    exact (sound.edges_between edge inside).imp (related.mem_elements_iff unique both.source).1
      (related.mem_elements_iff unique both.target).1
  · intro id' held
    obtain ⟨id, inside, same⟩ := OrderedMap.exists_related_of_mem level.variableIds.values held
    exact (related.mem_elements_iff unique same).1 (sound.variables_bound id inside)
  · have names := level.variableIds.keys
    rw [List.forall₂_eq_eq_eq] at names
    rw [← level.variableStyles, ← sound.names_shared, names]
  · intro child' held
    obtain ⟨child, inside, both⟩ := OrderedMap.exists_related_of_mem related.children.values held
    have placed := both.placed
    rw [sound.children_placed child inside] at placed
    generalize child'.parent = parent at placed
    cases placed with
    | some same => rw [unique.2 same level.id]
  · exact keyed unique level.nodes (fun _ _ both => both.id) sound.nodes_keyed
  · exact keyed unique level.edges (fun _ _ both => both.id) sound.edges_keyed
  · exact keyed unique related.children (fun _ _ both => both.inside.level.id) sound.children_keyed
  · refine sound.acyclic.image unique.1 ?_
    rintro one' two' ⟨edge', held, rfl, rfl⟩
    obtain ⟨edge, inside, both⟩ := edges held
    exact ⟨edge.source, edge.target, both.source, both.target, edge, inside, rfl, rfl⟩

/-- A graph is sound as soon as one that it corresponds to is. -/
theorem soundThroughout (unique : BiUnique R) (related : Corresponds R dag other)
    (sound : dag.SoundThroughout) : other.SoundThroughout := by
  induction dag using Dag.rise generalizing other with
  | step dag below =>
      refine .intro (related.root_sound unique sound.root) fun child' nested => ?_
      obtain ⟨child, inside, both⟩ := OrderedMap.exists_related_of_mem related.children.values nested
      exact below child inside both.inside (sound.child inside)

end Corresponds

end Dag

end RecipeGraph
