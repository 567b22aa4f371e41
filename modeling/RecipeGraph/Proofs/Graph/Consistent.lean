/-
# Graphs built by hand

Whoever builds a graph by its operations chooses the identifiers, and nothing keeps two elements
from having the same one. An insertion may then replace a node or a whole nested level that edges
already lead to. What a graph keeps all the same is said here: everything is stored under its own
identifier, edges join elements of their level, and nested levels know where they are, at every
depth. Distinct identifiers are not part of it, so none of the proofs about the builder applies.

What carries the proof is that no operation ever takes an element away: an element that is replaced
leaves another one under the same identifier, and the ends of an edge are known by nothing else.
Copying is the one operation that gives up the old identifiers. A node and a nested level that share
one get different ones, and an edge follows the nested level.
-/

import RecipeGraph.Proofs.Graph.FreshCopy
import RecipeGraph.Proofs.Graph.Minted

namespace RecipeGraph.Dag

/-! ### What is kept -/

/-- The elements, edges and nested levels of a level fit together. -/
structure Consistent (dag : Dag) : Prop where
  nodes_keyed : ∀ entry ∈ dag.nodes.entries, entry.1 = entry.2.id
  edges_keyed : ∀ entry ∈ dag.edges.entries, entry.1 = entry.2.id
  children_keyed : ∀ entry ∈ dag.children.entries, entry.1 = entry.2.id
  edges_joined : ∀ edge ∈ dag.edges.values,
    dag.hasEndpoint edge.source = true ∧ dag.hasEndpoint edge.target = true
  children_placed : ∀ child ∈ dag.children.values, child.parent = some dag.id

/-- Every level of the graph is consistent. -/
def ConsistentThroughout (dag : Dag) : Prop :=
  ∀ level, dag.HasLevel level → level.Consistent

/-! ### How graphs are built -/

/-- What can be done with a graph. -/
inductive Operation where
  | withParent (parent : Id)
  | withStyle (style : Style)
  | reidentify (id : Id) (name : String)
  | addNode (node : Node)
  | addEdge (edge : Edge)
  | attach (child : Dag)
  | merge (other : Dag)
  /-- Takes a copy, and goes on with the copy. -/
  | freshCopy (supply : IdSupply)
  | setStyle (name : String) (properties : StyleProperties)
  | bindStyles (keyword : String) (tags : List QualifiedPath)
  | setVariable (name : String) (id : Id)
  | setVariableStyle (name : String) (style : Option Style)
  | addImport (location : String)

/-- The other graphs that an operation uses up. -/
def Operation.graphs : Operation → List Dag
  | .attach child => [child]
  | .merge other => [other]
  | _ => []

/-- Does something with a graph: why it is refused, if it is, and the graph afterwards. -/
def perform (dag : Dag) : Operation → Option DagError × Dag
  | .withParent parent => (none, dag.withParent parent)
  | .withStyle style => (none, dag.withStyle style)
  | .reidentify id name => (none, dag.reidentify id name)
  | .addNode node => (none, dag.addNode node)
  | .addEdge edge =>
    match dag.addEdge edge with
    | .ok changed => (none, changed)
    | .error reason => (some reason, dag)
  | .attach child => (none, dag.attach child)
  | .merge other => (none, dag.merge other)
  | .freshCopy supply => (none, (dag.freshCopy supply).1)
  | .setStyle name properties => (none, dag.setStyle name properties)
  | .bindStyles keyword tags => (none, dag.bindStyles keyword tags)
  | .setVariable name id => (none, dag.setVariable name id)
  | .setVariableStyle name style => (none, dag.setVariableStyle name style)
  | .addImport location => (none, dag.addImport location)

/-- Graphs that come from empty ones by any sequence of operations. The graphs that an operation uses
up have come about in the same way, and a nested level may be taken out again. -/
inductive Built : Dag → Prop where
  | empty (id : Id) (name : String) : Built (.empty id name)
  | perform {dag : Dag} {operation : Operation} (before : Built dag)
      (given : ∀ other ∈ operation.graphs, Built other) : Built (dag.perform operation).2
  | child {dag child : Dag} (before : Built dag) (nested : child ∈ dag.children.values) :
      Built child

/-! ### Every operation keeps it -/

namespace ConsistentThroughout

variable {dag other : Dag}

theorem root (consistent : dag.ConsistentThroughout) : dag.Consistent :=
  consistent dag .self

theorem child (consistent : dag.ConsistentThroughout) (nested : other ∈ dag.children.values) :
    other.ConsistentThroughout := fun level deeper => consistent level (.inside nested deeper)

theorem intro (here : dag.Consistent)
    (below : ∀ child ∈ dag.children.values, child.ConsistentThroughout) :
    dag.ConsistentThroughout := by
  intro level has
  cases has with
  | self => exact here
  | inside nested deeper => exact below _ nested level deeper

theorem empty (id : Id) (name : String) : (Dag.empty id name).ConsistentThroughout :=
  .intro ⟨nofun, nofun, nofun, nofun, nofun⟩ nofun

/-- A change outside of the elements, edges and identity of a level keeps a graph consistent. -/
theorem congr {changed : Dag} (consistent : dag.ConsistentThroughout) (id : changed.id = dag.id)
    (nodes : changed.nodes = dag.nodes) (edges : changed.edges = dag.edges)
    (children : changed.children = dag.children) : changed.ConsistentThroughout := by
  have here := consistent.root
  have endpoints : changed.hasEndpoint = dag.hasEndpoint := by
    funext endpoint
    rw [hasEndpoint, hasEndpoint, nodes, children]
  refine .intro ⟨?_, ?_, ?_, ?_, ?_⟩ ?_
  · exact nodes ▸ here.nodes_keyed
  · exact edges ▸ here.edges_keyed
  · exact children ▸ here.children_keyed
  · rw [edges, endpoints]
    exact here.edges_joined
  · rw [children, id]
    exact here.children_placed
  · rw [children]
    exact fun _ => consistent.child

theorem withParent (consistent : dag.ConsistentThroughout) (parent : Id) :
    (dag.withParent parent).ConsistentThroughout :=
  consistent.congr rfl rfl rfl rfl

theorem addNode (consistent : dag.ConsistentThroughout) (node : Node) :
    (dag.addNode node).ConsistentThroughout := by
  have here := consistent.root
  have kept {id : Id} (held : dag.hasEndpoint id = true) :
      (dag.addNode node).hasEndpoint id = true := by
    rw [hasEndpoint_iff] at held ⊢
    exact mem_elements_addNode.2 (.inr held)
  refine .intro ⟨?_, here.edges_keyed, here.children_keyed, ?_, here.children_placed⟩
    fun _ nested => consistent.child nested
  · exact OrderedMap.keyed_insert here.nodes_keyed node
  · exact fun edge held => (here.edges_joined edge held).imp kept kept

/-- An edge is only taken in where its ends are. -/
theorem addEdge (consistent : dag.ConsistentThroughout) {edge : Edge}
    (source : edge.source ∈ dag.elements) (target : edge.target ∈ dag.elements) :
    ConsistentThroughout { dag with edges := dag.edges.insert edge.id edge } := by
  have here := consistent.root
  refine .intro ⟨here.nodes_keyed, ?_, here.children_keyed, ?_, here.children_placed⟩
    fun _ nested => consistent.child nested
  · exact OrderedMap.keyed_insert here.edges_keyed edge
  · intro held inside
    rcases OrderedMap.mem_values_insert inside with rfl | old
    · exact ⟨hasEndpoint_iff.2 source, hasEndpoint_iff.2 target⟩
    · exact here.edges_joined held old

theorem attach (consistent : dag.ConsistentThroughout) (inside : other.ConsistentThroughout) :
    (dag.attach other).ConsistentThroughout := by
  have here := consistent.root
  have kept {id : Id} (held : dag.hasEndpoint id = true) :
      (dag.attach other).hasEndpoint id = true := by
    rw [hasEndpoint_iff] at held ⊢
    exact mem_elements_attach.2 (.inr held)
  refine .intro ⟨here.nodes_keyed, here.edges_keyed, ?_, ?_, ?_⟩ ?_
  · exact keyed_attach here.children_keyed other
  · exact fun edge held => (here.edges_joined edge held).imp kept kept
  · intro child held
    rcases OrderedMap.mem_values_insert held with rfl | old
    · rfl
    · exact here.children_placed child old
  · intro child held
    rcases OrderedMap.mem_values_insert held with rfl | old
    · exact inside.withParent dag.id
    · exact consistent.child old

theorem reidentify (consistent : dag.ConsistentThroughout) (id : Id) (name : String) :
    (dag.reidentify id name).ConsistentThroughout := by
  have here := consistent.root
  have endpoints : (dag.reidentify id name).hasEndpoint = dag.hasEndpoint := by
    funext endpoint
    rw [Bool.eq_iff_iff, hasEndpoint_iff, hasEndpoint_iff]
    simp [Dag.elements, Dag.reidentify, OrderedMap.keys_mapValues]
  refine .intro ⟨here.nodes_keyed, here.edges_keyed, ?_, ?_, ?_⟩ ?_
  · intro entry held
    obtain ⟨old, inside, rfl⟩ := List.mem_map.1 held
    exact here.children_keyed old inside
  · rw [endpoints]
    exact here.edges_joined
  · intro child held
    obtain ⟨old, _, rfl⟩ := List.mem_map.1 (OrderedMap.values_mapValues _ _ ▸ held)
    rfl
  · intro child held
    obtain ⟨old, inside, rfl⟩ := List.mem_map.1 (OrderedMap.values_mapValues _ _ ▸ held)
    exact (consistent.child inside).withParent id

/-- The nodes and edges of the other level are stored first. An edge of it may lead to a level that
is nested only afterwards, so the two steps are looked at together. -/
theorem merge (consistent : dag.ConsistentThroughout) (inside : other.ConsistentThroughout) :
    (dag.merge other).ConsistentThroughout := by
  have here := consistent.root
  have there := inside.root
  have endpoint {id : Id} : (dag.merge other).hasEndpoint id = true ↔
      dag.hasEndpoint id = true ∨ other.hasEndpoint id = true := by
    simp only [hasEndpoint_iff]
    exact mem_elements_merge there.children_keyed
  refine .intro ⟨?_, ?_, ?_, ?_, ?_⟩ ?_
  · intro entry held
    rw [nodes_merge] at held
    exact (OrderedMap.mem_entries_insertAll held).elim (there.nodes_keyed entry)
      (here.nodes_keyed entry)
  · intro entry held
    rw [edges_merge] at held
    exact (OrderedMap.mem_entries_insertAll held).elim (there.edges_keyed entry)
      (here.edges_keyed entry)
  · exact keyed_merge here.children_keyed other
  · intro edge held
    rw [edges_merge] at held
    rcases OrderedMap.mem_values_extend held with new | old
    · exact (there.edges_joined edge new).imp (endpoint.2 <| .inr ·) (endpoint.2 <| .inr ·)
    · exact (here.edges_joined edge old).imp (endpoint.2 <| .inl ·) (endpoint.2 <| .inl ·)
  · intro child held
    rw [id_merge]
    rcases mem_children_merge held with ⟨nested, _, rfl⟩ | old
    · rfl
    · exact here.children_placed child old
  · intro child held
    rcases mem_children_merge held with ⟨nested, inner, rfl⟩ | old
    · exact (inside.child inner).withParent dag.id
    · exact consistent.child old

end ConsistentThroughout

/-! ### Copies -/

theorem copyNodes_olds (nodes : List Node) (supply : IdSupply) :
    (copyNodes nodes supply).1.map Prod.fst = nodes.map Node.id := by
  induction nodes generalizing supply with
  | nil => rfl
  | cons node rest step => exact congrArg (node.id :: ·) (step supply.take.2)

/-- Every copied edge has the moved ends of some edge. -/
theorem copyEdges_ends {moved : Renaming} {edges : List Edge} {supply : IdSupply} {copy : Edge}
    (held : copy ∈ (copyEdges moved edges supply).1) : ∃ edge ∈ edges,
      copy.source = moved.apply edge.source ∧ copy.target = moved.apply edge.target := by
  induction edges generalizing supply with
  | nil => nomatch held
  | cons edge rest step =>
      rcases List.mem_cons.1 held with rfl | later
      · exact ⟨edge, List.mem_cons_self, rfl, rfl⟩
      · obtain ⟨old, inside, ends⟩ := step later
        exact ⟨old, List.mem_cons_of_mem _ inside, ends⟩

theorem copyChildren_olds (children : List (Id × Dag)) (supply : IdSupply) :
    (copyChildren children supply).1.map Prod.fst = children.map fun entry => entry.2.id := by
  induction children generalizing supply with
  | nil => rfl
  | cons entry rest step => exact congrArg (entry.2.id :: ·) (step (entry.2.freshCopy supply).2)

/-- Every copied level is a copy of some nested level. -/
theorem copyChildren_copies {children : List (Id × Dag)} {supply : IdSupply} {copy : Id × Dag}
    (held : copy ∈ (copyChildren children supply).1) :
    ∃ entry ∈ children, ∃ supply, copy.2 = (entry.2.freshCopy supply).1 := by
  induction children generalizing supply with
  | nil => nomatch held
  | cons entry rest step =>
      rcases List.mem_cons.1 held with rfl | later
      · exact ⟨entry, List.mem_cons_self, supply, rfl⟩
      · obtain ⟨old, inside, same⟩ := step later
        exact ⟨old, List.mem_cons_of_mem _ inside, same⟩

section Copied

variable {dag : Dag} {own : Id} {nodes : List (Id × Node)} {children : List (Id × Dag)}

/-- Every element of a level has been copied as a node or as a nested level, and is moved to the
identifier of such a copy. -/
private theorem moved_copied (here : dag.Consistent)
    (old_nodes : nodes.map Prod.fst = dag.nodes.values.map Node.id)
    (old_children : children.map Prod.fst = dag.children.entries.map fun entry => entry.2.id)
    {id : Id} (held : dag.hasEndpoint id = true) :
    (∃ copy ∈ nodes, copy.2.id = (movedElements nodes children).apply id) ∨
      ∃ copy ∈ children, copy.2.id = (movedElements nodes children).apply id := by
  have known : id ∈ nodes.map Prod.fst ∨ id ∈ children.map Prod.fst := by
    rw [old_nodes, old_children]
    rcases mem_elements.1 (hasEndpoint_iff.1 held) with node | nested
    · obtain ⟨entry, inside, rfl⟩ := List.mem_map.1 node
      exact .inl (List.mem_map.2
        ⟨entry.2, List.mem_map_of_mem inside, (here.nodes_keyed entry inside).symm⟩)
    · rw [OrderedMap.keys, keys_of_keyed here.children_keyed] at nested
      exact .inr nested
  rcases movedElements_apply known with ⟨copy, inside, _, same⟩ | ⟨copy, inside, _, same⟩
  · exact .inl ⟨copy, inside, same.symm⟩
  · exact .inr ⟨copy, inside, same.symm⟩

/-- A level put together from copies of its parts is consistent. -/
private theorem consistent_copied (here : dag.Consistent) {edges : List Edge}
    (old_nodes : nodes.map Prod.fst = dag.nodes.values.map Node.id)
    (old_children : children.map Prod.fst = dag.children.entries.map fun entry => entry.2.id)
    (copies : ∀ copy ∈ children, copy.2.ConsistentThroughout)
    (ends : ∀ copy ∈ edges, ∃ edge ∈ dag.edges.values,
      copy.source = (movedElements nodes children).apply edge.source ∧
        copy.target = (movedElements nodes children).apply edge.target) :
    (dag.assembled own nodes children edges).ConsistentThroughout := by
  refine .intro ⟨?_, ?_, ?_, ?_, ?_⟩ ?_
  · exact fun _ held => (OrderedMap.mem_entries_ofList held).2
  · exact fun _ held => (OrderedMap.mem_entries_ofList held).2
  · exact fun _ held => (OrderedMap.mem_entries_ofList held).2
  · have joined {id : Id} (held : dag.hasEndpoint id = true) :
        (movedElements nodes children).apply id ∈ (nodesById (nodes.map Prod.snd)).keys ++
          (OrderedMap.ofList ((children.map fun copy => copy.2.withParent own).map
            fun copy => (copy.id, copy))).keys := by
      rcases moved_copied here old_nodes old_children held with
        ⟨copy, inside, same⟩ | ⟨copy, inside, same⟩
      · exact List.mem_append_left _
          (mem_keys_nodesById.2 ⟨copy.2, List.mem_map_of_mem inside, same⟩)
      · exact List.mem_append_right _ (OrderedMap.mem_keys_ofList.2
          ⟨copy.2.withParent own, List.mem_map_of_mem inside, same⟩)
    intro copy held
    obtain ⟨edge, old, source, target⟩ := ends copy (OrderedMap.mem_values_ofList held)
    rw [hasEndpoint_iff, hasEndpoint_iff, source, target]
    exact (here.edges_joined edge old).imp joined joined
  · intro child held
    obtain ⟨copy, _, rfl⟩ := List.mem_map.1 (OrderedMap.mem_values_ofList held)
    rfl
  · intro child held
    obtain ⟨copy, inside, rfl⟩ := List.mem_map.1 (OrderedMap.mem_values_ofList held)
    exact (copies copy inside).withParent own

end Copied

/-- A copy is consistent even where identifiers collide: the old end of an edge belongs to a node or
a nested level, so that some copy has the new one. -/
theorem ConsistentThroughout.freshCopy {dag : Dag} (consistent : dag.ConsistentThroughout)
    (supply : IdSupply) : (dag.freshCopy supply).1.ConsistentThroughout := by
  induction dag using Dag.rise generalizing supply with
  | step dag below =>
      rw [freshCopy_eq]
      refine consistent_copied consistent.root (copyNodes_olds _ _) (copyChildren_olds _ _) ?_
        fun copy held => copyEdges_ends held
      intro copy held
      obtain ⟨entry, inside, supply', same⟩ := copyChildren_copies held
      have nested : entry.2 ∈ dag.children.values := List.mem_map_of_mem inside
      rw [same]
      exact below entry.2 nested (consistent.child nested) supply'

/-! ### Graphs that have been built -/

/-- Whatever is done with a consistent graph, and with consistent graphs handed in, what comes of it
is consistent. -/
theorem ConsistentThroughout.perform {dag : Dag} (consistent : dag.ConsistentThroughout)
    (operation : Operation) (given : ∀ other ∈ operation.graphs, other.ConsistentThroughout) :
    (dag.perform operation).2.ConsistentThroughout := by
  cases operation with
  | withParent parent => exact consistent.withParent parent
  | reidentify id name => exact consistent.reidentify id name
  | addNode node => exact consistent.addNode node
  | addEdge edge =>
      rw [Dag.perform]
      cases added : dag.addEdge edge with
      | ok changed =>
          obtain ⟨source, target, rfl⟩ := addEdge_ok added
          exact consistent.addEdge source target
      | error reason => exact consistent
  | attach child => exact consistent.attach (given child List.mem_cons_self)
  | merge other => exact consistent.merge (given other List.mem_cons_self)
  | freshCopy supply => exact consistent.freshCopy supply
  | withStyle style => exact consistent.congr rfl rfl rfl rfl
  | setStyle name properties => exact consistent.congr rfl rfl rfl rfl
  | bindStyles keyword tags => exact consistent.congr rfl rfl rfl rfl
  | setVariable name id => exact consistent.congr rfl rfl rfl rfl
  | setVariableStyle name style => exact consistent.congr rfl rfl rfl rfl
  | addImport location => exact consistent.congr rfl rfl rfl rfl

/-- However a graph is built, each of its levels is consistent. -/
theorem Built.consistent {dag : Dag} (built : dag.Built) : dag.ConsistentThroughout := by
  induction built with
  | empty id name => exact .empty id name
  | perform _ _ step given => exact step.perform _ given
  | child _ nested step => exact step.child nested

/-- Does several things with a graph, one after the other. -/
def performAll (dag : Dag) (operations : List Operation) : Dag :=
  operations.foldl (fun dag operation => (dag.perform operation).2) dag

theorem Built.performAll {dag : Dag} (built : dag.Built) (operations : List Operation)
    (given : ∀ operation ∈ operations, ∀ other ∈ operation.graphs, other.Built) :
    (dag.performAll operations).Built := by
  induction operations generalizing dag with
  | nil => exact built
  | cons operation rest step =>
      have after : (dag.perform operation).2.Built :=
        .perform built (given operation List.mem_cons_self)
      exact step after fun later held => given later (List.mem_cons_of_mem _ held)

/-- However a graph is built, each of its levels is consistent. An edge is refused exactly where one
of its ends is no element of the level, and then the graph is what it was. -/
theorem built_consistent {dag : Dag} (built : dag.Built) :
    dag.ConsistentThroughout ∧ ∀ edge : Edge,
      ((dag.perform (.addEdge edge)).1 = none ↔
        dag.hasEndpoint edge.source = true ∧ dag.hasEndpoint edge.target = true) ∧
      ∀ reason, (dag.perform (.addEdge edge)).1 = some reason →
        (dag.perform (.addEdge edge)).2 = dag := by
  constructor
  · exact built.consistent
  · intro edge
    rw [perform]
    cases added : dag.addEdge edge with
    | ok changed =>
        obtain ⟨source, target, _⟩ := addEdge_ok added
        exact ⟨⟨fun _ => ⟨hasEndpoint_iff.2 source, hasEndpoint_iff.2 target⟩, fun _ => rfl⟩,
          nofun⟩
    | error reason =>
        refine ⟨⟨nofun, fun ⟨source, target⟩ => ?_⟩, fun _ _ => rfl⟩
        rw [addEdge_eq (hasEndpoint_iff.1 source) (hasEndpoint_iff.1 target)] at added
        cases added

/-- A graph in which a nested level has the identifier of a node, and an absorbed node that of
another one, at the time when an edge leads from the one to the other. Afterwards it is copied. -/
def collided : Dag :=
  (empty (.ofNat 0) "").performAll [.addNode ⟨.ofNat 1, "mill", .plain⟩,
    .addNode ⟨.ofNat 2, "bake", .plain⟩, .addEdge ⟨.ofNat 3, "flour", .ofNat 1, .ofNat 2, .plain⟩,
    .attach (empty (.ofNat 1) "pantry"),
    .merge ((empty (.ofNat 2) "").performAll [.addNode ⟨.ofNat 2, "fry", .plain⟩]),
    .reidentify (.ofNat 1) "kitchen", .freshCopy .start]

theorem built_consistent_of_collided :
    let loose : Edge := ⟨.ofNat 4, "flour", .ofNat 1, .ofNat 2, .plain⟩
    collided.Built ∧ (collided.perform (.addEdge loose)).1.isSome = true ∧
      (collided.nodes.size, collided.edges.size, collided.children.size) = (2, 1, 1) ∧
      collided.ConsistentThroughout ∧ (collided.perform (.addEdge loose)).2 = collided := by
  intro loose
  have inner : ((empty (.ofNat 2) "").performAll [.addNode ⟨.ofNat 2, "fry", .plain⟩]).Built :=
    (Built.empty _ _).performAll _ (by simp [Operation.graphs])
  have built : collided.Built := by
    refine (Built.empty _ _).performAll _ ?_
    simpa [Operation.graphs] using ⟨Built.empty _ _, inner⟩
  have refused : (collided.perform (.addEdge loose)).1.isSome = true := by decide +kernel
  obtain ⟨reason, given⟩ := Option.isSome_iff_exists.1 refused
  obtain ⟨consistent, edges⟩ := built_consistent built
  exact ⟨built, refused, by decide +kernel, consistent, (edges loose).2 reason given⟩

end RecipeGraph.Dag
