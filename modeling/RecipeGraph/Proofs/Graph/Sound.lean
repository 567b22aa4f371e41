/-
# Sound levels

A level is well formed when its edges join its own elements, its variables stand for its own
elements, every variable has a place in the table of styles, and the levels nested in it know where
they are. It is sound when moreover everything is stored under its own identifier and nothing flows
in a circle. Every operation that the builder uses keeps a whole graph sound under conditions that
say what has to be new.
-/

import RecipeGraph.Dag.Lookup
import RecipeGraph.Proofs.Graph.Flow
import RecipeGraph.Proofs.Graph.Level

namespace RecipeGraph.Dag

/-- The edges, variables and nested levels of a level fit together. -/
structure WellFormed (dag : Dag) : Prop where
  /-- An edge starts and ends at elements of the level. -/
  edges_between : ∀ edge ∈ dag.edges.values,
    edge.source ∈ dag.elements ∧ edge.target ∈ dag.elements
  /-- A variable stands for an element of the level. -/
  variables_bound : ∀ id ∈ dag.variableIds.values, id ∈ dag.elements
  /-- Variables and their styles are kept under the same names in the same order. -/
  names_shared : dag.variableIds.keys = dag.variableStyles.keys
  /-- A nested level knows the level it is nested in. -/
  children_placed : ∀ child ∈ dag.children.values, child.parent = some dag.id

/-- What the builder maintains on every level. -/
structure Sound (dag : Dag) : Prop extends WellFormed dag where
  nodes_keyed : ∀ entry ∈ dag.nodes.entries, entry.1 = entry.2.id
  edges_keyed : ∀ entry ∈ dag.edges.entries, entry.1 = entry.2.id
  children_keyed : ∀ entry ∈ dag.children.entries, entry.1 = entry.2.id
  acyclic : Acyclic dag.Feeds

/-- Every level of the graph is sound. -/
def SoundThroughout (dag : Dag) : Prop :=
  ∀ level, dag.HasLevel level → level.Sound

namespace SoundThroughout

theorem root {dag : Dag} (sound : dag.SoundThroughout) : dag.Sound :=
  sound dag .self

theorem child {dag child : Dag} (sound : dag.SoundThroughout)
    (nested : child ∈ dag.children.values) : child.SoundThroughout := fun level deeper =>
  sound level (.inside nested deeper)

theorem intro {dag : Dag} (sound : dag.Sound)
    (below : ∀ child ∈ dag.children.values, child.SoundThroughout) : dag.SoundThroughout := by
  intro level has
  cases has with
  | self => exact sound
  | inside nested deeper => exact below _ nested level deeper

/-- Where a level is nested does not matter for its soundness. -/
theorem withParent {dag : Dag} (sound : dag.SoundThroughout) (parent : Id) :
    (dag.withParent parent).SoundThroughout :=
  .intro ⟨⟨sound.root.edges_between, sound.root.variables_bound, sound.root.names_shared,
      sound.root.children_placed⟩, sound.root.nodes_keyed, sound.root.edges_keyed,
      sound.root.children_keyed, sound.root.acyclic⟩
    fun _ nested => sound.child nested

theorem empty (id : Id) (name : String) : (Dag.empty id name).SoundThroughout := by
  have noFlow : ∀ one two, ¬ (Dag.empty id name).Feeds one two := by
    rintro one two ⟨edge, held, _⟩
    nomatch held
  refine .intro ⟨⟨nofun, nofun, rfl, nofun⟩, nofun, nofun, nofun, ?_⟩ nofun
  intro here circle
  obtain ⟨next, step, _⟩ := Relation.TransGen.head'_iff.1 circle
  exact noFlow here next step

theorem addNode {dag : Dag} (sound : dag.SoundThroughout) (node : Node) :
    (dag.addNode node).SoundThroughout := by
  have held : ∀ {id}, id ∈ dag.elements → id ∈ (dag.addNode node).elements :=
    fun inside => mem_elements_addNode.2 (.inr inside)
  have sound' := sound.root
  refine .intro ⟨⟨?_, ?_, sound'.names_shared, sound'.children_placed⟩, ?_, sound'.edges_keyed,
    sound'.children_keyed, sound'.acyclic⟩ fun _ nested => sound.child nested
  · intro edge inside
    exact (sound'.edges_between edge inside).imp held held
  · intro id inside
    exact held (sound'.variables_bound id inside)
  · exact OrderedMap.keyed_insert sound'.nodes_keyed node

end SoundThroughout

/-- Nothing flows out of the element, no variable stands for it, and it is no level. -/
structure Idle (dag : Dag) (id : Id) : Prop where
  feeds_nothing : ∀ edge ∈ dag.edges.values, edge.source ≠ id
  bound_nowhere : ∀ bound ∈ dag.variableIds.values, bound ≠ id
  no_child : id ∉ dag.children.keys

/-- An edge between elements is not refused. -/
theorem addEdge_eq {dag : Dag} {edge : Edge} (source : edge.source ∈ dag.elements)
    (target : edge.target ∈ dag.elements) :
    dag.addEdge edge = .ok { dag with edges := dag.edges.insert edge.id edge } := by
  rw [addEdge, hasEndpoint_iff.2 source, hasEndpoint_iff.2 target]
  rfl

/-- An edge that is not refused runs between elements. -/
theorem addEdge_ok {dag changed : Dag} {edge : Edge} (added : dag.addEdge edge = .ok changed) :
    edge.source ∈ dag.elements ∧ edge.target ∈ dag.elements ∧
      changed = { dag with edges := dag.edges.insert edge.id edge } := by
  unfold addEdge at added
  split at added
  · cases added
  · next source =>
      split at added
      · cases added
      · next target =>
          simp only [Bool.not_eq_true', Bool.not_eq_false] at source target
          exact ⟨hasEndpoint_iff.1 source, hasEndpoint_iff.1 target, (Except.ok.inj added).symm⟩

namespace SoundThroughout

/-- An edge into an element that nothing flows out of keeps a graph sound. -/
theorem insertEdge {dag : Dag} (sound : dag.SoundThroughout) {edge : Edge}
    (source : edge.source ∈ dag.elements) (target : edge.target ∈ dag.elements)
    (noWayOut : ∀ other ∈ dag.edges.values, other.source ≠ edge.target)
    (apart : edge.source ≠ edge.target) :
    SoundThroughout { dag with edges := dag.edges.insert edge.id edge } := by
  have sound' := sound.root
  refine .intro ⟨⟨?_, sound'.variables_bound, sound'.names_shared, sound'.children_placed⟩,
    sound'.nodes_keyed, ?_, sound'.children_keyed, ?_⟩ fun _ nested => sound.child nested
  · intro other inside
    rcases OrderedMap.mem_values_insert inside with rfl | old
    · exact ⟨source, target⟩
    · exact sound'.edges_between other old
  · exact OrderedMap.keyed_insert sound'.edges_keyed edge
  · refine sound'.acyclic.into_sink edge.target ?_ ?_
    · rintro next ⟨other, inside, from_target, _⟩
      rcases OrderedMap.mem_values_insert inside with rfl | old
      · exact apart from_target
      · exact noWayOut other old from_target
    · rintro one two ⟨other, inside, rfl, rfl⟩
      rcases OrderedMap.mem_values_insert inside with rfl | old
      · exact .inr rfl
      · exact .inl ⟨other, old, rfl, rfl⟩

theorem attach {dag inner : Dag} (sound : dag.SoundThroughout) (inside : inner.SoundThroughout) :
    (dag.attach inner).SoundThroughout := by
  have held : ∀ {id}, id ∈ dag.elements → id ∈ (dag.attach inner).elements :=
    fun old => mem_elements_attach.2 (.inr old)
  have sound' := sound.root
  refine .intro ⟨⟨?_, ?_, sound'.names_shared, ?_⟩, sound'.nodes_keyed, sound'.edges_keyed, ?_,
    sound'.acyclic⟩ ?_
  · intro edge old
    exact (sound'.edges_between edge old).imp held held
  · intro id old
    exact held (sound'.variables_bound id old)
  · intro child nested
    rcases OrderedMap.mem_values_insert nested with rfl | old
    · rfl
    · exact sound'.children_placed child old
  · exact keyed_attach sound'.children_keyed inner
  · intro child nested
    rcases OrderedMap.mem_values_insert nested with rfl | old
    · exact inside.withParent dag.id
    · exact sound.child old

/-- A level may absorb another one if the two have no element in common. -/
theorem merge {dag other : Dag} (sound : dag.SoundThroughout) (sound' : other.SoundThroughout)
    (apart : ∀ id ∈ dag.elements, id ∉ other.elements) : (dag.merge other).SoundThroughout := by
  have elements {id : Id} : id ∈ (dag.merge other).elements ↔
      id ∈ dag.elements ∨ id ∈ other.elements := mem_elements_merge sound'.root.children_keyed
  have edges : ∀ edge ∈ (dag.merge other).edges.values,
      edge ∈ other.edges.values ∨ edge ∈ dag.edges.values := by
    rw [edges_merge]
    exact fun edge => OrderedMap.mem_values_extend
  refine .intro ⟨⟨?_, ?_, ?_, ?_⟩, ?_, ?_, ?_, ?_⟩ ?_
  · intro edge held
    rcases edges edge held with new | old
    · exact (sound'.root.edges_between edge new).imp (elements.2 <| .inr ·) (elements.2 <| .inr ·)
    · exact (sound.root.edges_between edge old).imp (elements.2 <| .inl ·) (elements.2 <| .inl ·)
  · intro id held
    have held : id ∈ (dag.variableIds.extend other.variableIds).values := by
      simpa only [Dag.merge] using held
    rcases OrderedMap.mem_values_extend held with new | old
    · exact elements.2 (.inr (sound'.root.variables_bound id new))
    · exact elements.2 (.inl (sound.root.variables_bound id old))
  · exact OrderedMap.keys_extend_congr sound.root.names_shared sound'.root.names_shared
  · intro child held
    rw [id_merge]
    rcases mem_children_merge held with ⟨nested, _, rfl⟩ | old
    · rfl
    · exact sound.root.children_placed child old
  · intro entry held
    rw [nodes_merge] at held
    exact (OrderedMap.mem_entries_insertAll held).elim (sound'.root.nodes_keyed entry)
      (sound.root.nodes_keyed entry)
  · intro entry held
    rw [edges_merge] at held
    exact (OrderedMap.mem_entries_insertAll held).elim (sound'.root.edges_keyed entry)
      (sound.root.edges_keyed entry)
  · exact keyed_merge sound.root.children_keyed other
  · refine sound.root.acyclic.union sound'.root.acyclic (· ∈ dag.elements) ?_ ?_ ?_
    · rintro one two ⟨edge, held, rfl, rfl⟩
      exact sound.root.edges_between edge held
    · rintro one two ⟨edge, held, rfl, rfl⟩
      exact (sound'.root.edges_between edge held).imp (fun new old => apart _ old new)
        fun new old => apart _ old new
    · rintro one two ⟨edge, held, rfl, rfl⟩
      rcases edges edge held with new | old
      · exact .inr ⟨edge, new, rfl, rfl⟩
      · exact .inl ⟨edge, old, rfl, rfl⟩
  · intro child held
    rcases mem_children_merge held with ⟨nested, inside, rfl⟩ | old
    · exact (sound'.child inside).withParent dag.id
    · exact sound.child old

theorem reidentify {dag : Dag} (sound : dag.SoundThroughout) (id : Id) (name : String) :
    (dag.reidentify id name).SoundThroughout := by
  have elements : (dag.reidentify id name).elements = dag.elements := by
    simp [Dag.elements, Dag.reidentify, OrderedMap.keys_mapValues]
  have sound' := sound.root
  refine .intro ⟨⟨?_, ?_, sound'.names_shared, ?_⟩, sound'.nodes_keyed, sound'.edges_keyed, ?_,
    sound'.acyclic⟩ ?_
  · rw [elements]
    exact sound'.edges_between
  · rw [elements]
    exact sound'.variables_bound
  · intro child nested
    obtain ⟨old, _, rfl⟩ := List.mem_map.1 (OrderedMap.values_mapValues _ _ ▸ nested)
    rfl
  · intro entry nested
    obtain ⟨old, inside, rfl⟩ := List.mem_map.1 nested
    exact sound'.children_keyed old inside
  · intro child nested
    obtain ⟨old, inside, rfl⟩ := List.mem_map.1 (OrderedMap.values_mapValues _ _ ▸ nested)
    exact (sound.child inside).withParent id

/-- Lets a variable stand for an element of the level. -/
theorem bind {dag : Dag} (sound : dag.SoundThroughout) (name : String) {id : Id}
    (inside : id ∈ dag.elements) (style : Option Style) :
    ((dag.setVariable name id).setVariableStyle name style).SoundThroughout := by
  have sound' := sound.root
  refine .intro ⟨⟨sound'.edges_between, ?_, ?_, sound'.children_placed⟩, sound'.nodes_keyed,
    sound'.edges_keyed, sound'.children_keyed, sound'.acyclic⟩ fun _ nested => sound.child nested
  · intro bound held
    rcases OrderedMap.mem_values_insert held with rfl | old
    · exact inside
    · exact sound'.variables_bound bound old
  · exact OrderedMap.keys_insert_congr sound'.names_shared name id style

/-- A change that keeps elements, edges, variables and nested levels keeps a graph sound. -/
theorem congr {dag changed : Dag} (sound : dag.SoundThroughout) (id : changed.id = dag.id)
    (nodes : changed.nodes = dag.nodes) (edges : changed.edges = dag.edges)
    (children : changed.children = dag.children) (ids : changed.variableIds = dag.variableIds)
    (styles : changed.variableStyles = dag.variableStyles) : changed.SoundThroughout := by
  have sound' := sound.root
  have elements : changed.elements = dag.elements := by
    rw [Dag.elements, nodes, children]
    rfl
  have feeds : changed.Feeds = dag.Feeds := by
    funext one two
    rw [Feeds, edges]
    rfl
  refine .intro ⟨⟨?_, ?_, ?_, ?_⟩, ?_, ?_, ?_, ?_⟩ ?_
  · rw [edges, elements]
    exact sound'.edges_between
  · rw [ids, elements]
    exact sound'.variables_bound
  · rw [ids, styles]
    exact sound'.names_shared
  · rw [children, id]
    exact sound'.children_placed
  · rw [nodes]
    exact sound'.nodes_keyed
  · rw [edges]
    exact sound'.edges_keyed
  · rw [children]
    exact sound'.children_keyed
  · rw [feeds]
    exact sound'.acyclic
  · rw [children]
    exact fun _ => sound.child

end SoundThroughout

/-! ### What lookups find -/

/-- The level that a segment selects is nested in this one. -/
theorem childFor?_mem {dag child : Dag} {segment : String}
    (found : dag.childFor? segment = some child) : child ∈ dag.children.values := by
  unfold childFor? at found
  split at found
  · next bound =>
      obtain rfl := Option.some.inj found
      obtain ⟨id, _, held⟩ := Option.bind_eq_some_iff.1 bound
      exact OrderedMap.mem_values_of_get? held
  · exact List.mem_reverse.1 (List.mem_of_find?_eq_some found)

/-- What a path flows from is the value of a variable, or the level that the path leads through. -/
theorem producer?_cases {dag : Dag} {path : QualifiedPath} {id : Id}
    (found : dag.producer? path = some id) :
    id ∈ dag.variableIds.values ∨ ∃ child ∈ dag.children.values, child.id = id := by
  unfold producer? at found
  split at found
  · cases found
  · exact .inl (OrderedMap.mem_values_of_get? found)
  · split at found
    · cases found
    · next child selected =>
        obtain ⟨_, _, rfl⟩ := Option.map_eq_some_iff.1 found
        exact .inr ⟨child, childFor?_mem selected, rfl⟩

/-- On a sound level arguments flow from its own elements. -/
theorem Sound.producer?_mem {dag : Dag} (sound : dag.Sound) {path : QualifiedPath} {id : Id}
    (found : dag.producer? path = some id) : id ∈ dag.elements := by
  rcases producer?_cases found with bound | ⟨child, nested, rfl⟩
  · exact sound.variables_bound id bound
  · exact mem_elements.2 (.inr (values_keyed sound.children_keyed nested))

/-- Nothing flows from an idle element. -/
theorem Sound.producer?_ne {dag : Dag} (sound : dag.Sound) {path : QualifiedPath} {id idle : Id}
    (found : dag.producer? path = some id) (unused : dag.Idle idle) : id ≠ idle := by
  rcases producer?_cases found with bound | ⟨child, nested, rfl⟩
  · exact unused.bound_nowhere id bound
  · intro same
    exact unused.no_child (same ▸ values_keyed sound.children_keyed nested)

end RecipeGraph.Dag
