/-
# The same operations on corresponding graphs

Graphs that correspond under a one-to-one relation still do so after the same operation on both,
provided that what the operation is given corresponds as well. Looking something up in both gives
corresponding answers, and the same styles.
-/

import RecipeGraph.Flatten
import RecipeGraph.Proofs.Graph.Correspondence

namespace RecipeGraph

open Relator (BiUnique)

/-- A name is related to itself alone. -/
theorem biUnique_eq {α : Type} : BiUnique (Eq : α → α → Prop) :=
  ⟨fun _ _ _ one two => one.trans two.symm, fun _ _ _ one two => one.symm.trans two⟩

namespace Dag

namespace Corresponds

variable {R : Id → Id → Prop} {dag other : Dag}

theorem empty {id id' : Id} (same : R id id') (name : String) :
    Corresponds R (.empty id name) (.empty id' name) :=
  corresponds_iff.2 ⟨⟨same, rfl, rfl, .empty, .empty, rfl, rfl, .empty, rfl, rfl⟩, .empty⟩

theorem withStyle (related : Corresponds R dag other) (style : Style) :
    Corresponds R (dag.withStyle style) (other.withStyle style) :=
  corresponds_iff.2 ⟨{ related.level with style := rfl }, related.children⟩

theorem addNode (unique : BiUnique R) (related : Corresponds R dag other) {node node' : Node}
    (same : node.Corresponds R node') : Corresponds R (dag.addNode node) (other.addNode node') :=
  corresponds_iff.2 ⟨{ related.level with nodes := related.level.nodes.insert unique same.id same },
    related.children⟩

theorem insertEdge (unique : BiUnique R) (related : Corresponds R dag other) {edge edge' : Edge}
    (same : edge.Corresponds R edge') :
    Corresponds R { dag with edges := dag.edges.insert edge.id edge }
      { other with edges := other.edges.insert edge'.id edge' } :=
  corresponds_iff.2 ⟨{ related.level with edges := related.level.edges.insert unique same.id same },
    related.children⟩

theorem setVariable (related : Corresponds R dag other) (name : String) {id id' : Id}
    (same : R id id') : Corresponds R (dag.setVariable name id) (other.setVariable name id') :=
  corresponds_iff.2 ⟨{ related.level with
    variableIds := related.level.variableIds.insert biUnique_eq rfl same }, related.children⟩

theorem setVariableStyle (related : Corresponds R dag other) (name : String)
    (style : Option Style) :
    Corresponds R (dag.setVariableStyle name style) (other.setVariableStyle name style) :=
  corresponds_iff.2 ⟨{ related.level with
    variableStyles := congrArg (·.insert name style) related.level.variableStyles },
    related.children⟩

theorem setStyle (related : Corresponds R dag other) (name : String)
    (properties : StyleProperties) :
    Corresponds R (dag.setStyle name properties) (other.setStyle name properties) :=
  corresponds_iff.2 ⟨{ related.level with
    styles := congrArg (·.insert name properties) related.level.styles }, related.children⟩

theorem bindStyles (related : Corresponds R dag other) (keyword : String)
    (tags : List QualifiedPath) :
    Corresponds R (dag.bindStyles keyword tags) (other.bindStyles keyword tags) :=
  corresponds_iff.2 ⟨{ related.level with
    bindings := congrArg (·.insert keyword tags) related.level.bindings }, related.children⟩

theorem addImport (related : Corresponds R dag other) (location : String) :
    Corresponds R (dag.addImport location) (other.addImport location) :=
  corresponds_iff.2 ⟨{ related.level with
    imports := congrArg (·.insert location) related.level.imports }, related.children⟩

/-- Corresponding graphs are nested as corresponding levels. -/
theorem nested {child child' : Dag} (inside : Corresponds R child child') {parent parent' : Id}
    (same : R parent parent') :
    ChildCorresponds R (child.withParent parent) (child'.withParent parent') :=
  ⟨.some same, withParent_left_iff.2 (withParent_right_iff.2 inside)⟩

theorem attach (unique : BiUnique R) (related : Corresponds R dag other) {child child' : Dag}
    (inside : Corresponds R child child') :
    Corresponds R (dag.attach child) (other.attach child') := by
  refine corresponds_iff.2 ⟨{ related.level with }, ?_⟩
  exact related.children.insert unique inside.level.id (inside.nested related.level.id)

theorem reidentify (related : Corresponds R dag other) {id id' : Id} (same : R id id')
    (name : String) : Corresponds R (dag.reidentify id name) (other.reidentify id' name) := by
  refine corresponds_iff.2 ⟨{ related.level with id := same, name := rfl }, ?_⟩
  exact related.children.mapValues fun _ _ both => both.inside.nested same

theorem merge (unique : BiUnique R) (related : Corresponds R dag other) {added added' : Dag}
    (both : Corresponds R added added') :
    Corresponds R (dag.merge added) (other.merge added') := by
  have level := related.level
  have level' := both.level
  refine corresponds_iff.2 ⟨⟨?_, ?_, ?_, ?_, ?_, ?_, ?_, ?_, ?_, ?_⟩, ?_⟩
  · rw [id_merge, id_merge]
    exact level.id
  · rw [Dag.merge, Dag.merge, attachAll_eq, attachAll_eq]
    exact level.name
  · rw [Dag.merge, Dag.merge, attachAll_eq, attachAll_eq]
    exact level.style
  · rw [nodes_merge, nodes_merge]
    exact level.nodes.extend unique level'.nodes
  · rw [edges_merge, edges_merge]
    exact level.edges.extend unique level'.edges
  · exact congrArg₂ OrderedMap.extend level.styles level'.styles
  · exact congrArg₂ OrderedMap.extend level.bindings level'.bindings
  · exact level.variableIds.extend biUnique_eq level'.variableIds
  · exact congrArg₂ OrderedMap.extend level.variableStyles level'.variableStyles
  · exact congrArg₂ OrderedSet.extend level.imports level'.imports
  · rw [children_merge, children_merge]
    refine related.children.insertAll unique ?_
    show List.Forall₂ _ (added.children.values.map _) (added'.children.values.map _)
    rw [List.forall₂_map_left_iff, List.forall₂_map_right_iff]
    exact both.children.values.imp fun _ _ child =>
      ⟨child.inside.level.id, child.inside.nested level.id⟩

/-! ### Looking up -/

private theorem find?_related {α β : Type} {r : α → β → Prop} {accept : α → Bool}
    {accept' : β → Bool} {items : List α} {others : List β} (related : List.Forall₂ r items others)
    (same : ∀ item other, r item other → accept item = accept' other) :
    Option.Rel r (items.find? accept) (others.find? accept') := by
  induction related with
  | nil => exact .none
  | @cons item other rest rest' here _ step =>
      rw [List.find?_cons, List.find?_cons, ← same item other here]
      cases accept item with
      | true => exact .some here
      | false => exact step

theorem bind_related {α α' β β' : Type} {r : α → α' → Prop} {s : β → β' → Prop} {one : Option α}
    {two : Option α'} {f : α → Option β} {f' : α' → Option β'} (related : Option.Rel r one two)
    (next : ∀ a a', r a a' → Option.Rel s (f a) (f' a')) :
    Option.Rel s (one.bind f) (two.bind f') := by
  cases related with
  | none => exact .none
  | some held => exact next _ _ held

theorem childFor? (unique : BiUnique R) (related : Corresponds R dag other) (segment : String) :
    Option.Rel (Corresponds R) (dag.childFor? segment) (other.childFor? segment) := by
  have bound : Option.Rel (ChildCorresponds R)
      ((dag.variableIds.get? segment).bind dag.children.get?)
      ((other.variableIds.get? segment).bind other.children.get?) :=
    bind_related (related.level.variableIds.get? biUnique_eq rfl)
      fun _ _ same => related.children.get? unique same
  have named : Option.Rel (ChildCorresponds R)
      (dag.children.values.reverse.find? fun child => child.name == segment)
      (other.children.values.reverse.find? fun child => child.name == segment) := by
    refine find?_related (List.rel_reverse related.children.values) fun child child' both => ?_
    rw [both.inside.level.name]
  unfold Dag.childFor?
  generalize (dag.variableIds.get? segment).bind dag.children.get? = found at bound
  generalize (other.variableIds.get? segment).bind other.children.get? = found' at bound
  cases bound with
  | none => exact optionRel_imp named fun _ _ both => both.inside
  | some both => exact .some both.inside

theorem variableAt? (unique : BiUnique R) (segments : List String)
    (related : Corresponds R dag other) :
    Option.Rel R (dag.variableAt? segments) (other.variableAt? segments) := by
  induction segments generalizing dag other with
  | nil => exact .none
  | cons segment rest step =>
      cases rest with
      | nil => exact related.level.variableIds.get? biUnique_eq rfl
      | cons next rest =>
          exact bind_related (related.childFor? unique segment) fun _ _ both => step both

/-- Two optional values that are continued alike come to the same. -/
private theorem bind_eq {α α' β : Type} {r : α → α' → Prop} {one : Option α} {two : Option α'}
    {f : α → Option β} {f' : α' → Option β} (related : Option.Rel r one two)
    (next : ∀ a a', r a a' → f a = f' a') : one.bind f = two.bind f' := by
  cases related with
  | none => rfl
  | some held => exact next _ _ held

theorem variableStyleAt?_eq (unique : BiUnique R) (segments : List String)
    (related : Corresponds R dag other) :
    dag.variableStyleAt? segments = other.variableStyleAt? segments := by
  induction segments generalizing dag other with
  | nil => rfl
  | cons segment rest step =>
      cases rest with
      | nil => rw [variableStyleAt?, variableStyleAt?, related.level.variableStyles]
      | cons next rest =>
          exact bind_eq (related.childFor? unique segment) fun _ _ both => step both

theorem styleAt?_eq (unique : BiUnique R) (segments : List String)
    (related : Corresponds R dag other) : dag.styleAt? segments = other.styleAt? segments := by
  induction segments generalizing dag other with
  | nil => rfl
  | cons segment rest step =>
      cases rest with
      | nil => rw [styleAt?, styleAt?, related.level.styles]
      | cons next rest =>
          rw [styleAt?, styleAt?, related.level.styles,
            bind_eq (related.childFor? unique segment) fun _ _ both => step both]

/-- Arguments flow from corresponding elements. -/
theorem producer? (unique : BiUnique R) (related : Corresponds R dag other) (path : QualifiedPath) :
    Option.Rel R (dag.producer? path) (other.producer? path) := by
  unfold Dag.producer?
  split
  · exact .none
  · exact related.level.variableIds.get? biUnique_eq rfl
  · next segment next rest _ =>
      have selected := related.childFor? unique segment
      generalize dag.childFor? segment = child at selected
      generalize other.childFor? segment = child' at selected
      cases selected with
      | none => exact .none
      | some both =>
          have reached := both.variableAt? unique (next :: rest)
          dsimp only
          generalize Dag.variableAt? (next :: rest) _ = id at reached ⊢
          generalize Dag.variableAt? (next :: rest) _ = id' at reached ⊢
          cases reached with
          | none => exact .none
          | some _ => exact .some both.level.id

/-- A named style flattens to the same properties, and the same tags are missing. -/
theorem flatten_eq (unique : BiUnique R) (related : Corresponds R dag other) (block : StyleBlock) :
    block.flatten dag = block.flatten other := by
  have tags : Flattened.addTag dag = Flattened.addTag other := by
    funext result tag
    simp only [Flattened.addTag, style?, related.styleAt?_eq unique]
  simp only [StyleBlock.flatten, tags]

/-! ### Adding an edge -/

/-- An edge is added to both levels, or refused by both with the same message. -/
theorem addEdge (unique : BiUnique R) (related : Corresponds R dag other) {edge edge' : Edge}
    (same : edge.Corresponds R edge') (printed : ∀ id id', R id id' → id.render = id'.render) :
    (∃ changed changed', dag.addEdge edge = .ok changed ∧ other.addEdge edge' = .ok changed' ∧
      Corresponds R changed changed' ∧ changed.parent = dag.parent ∧
      changed'.parent = other.parent) ∨
      ∃ reason reason' : DagError, dag.addEdge edge = .error reason ∧
        other.addEdge edge' = .error reason' ∧ reason.message = reason'.message := by
  have source := related.hasEndpoint_eq unique same.source
  have target := related.hasEndpoint_eq unique same.target
  have shownSource : toString edge.source = toString edge'.source := printed _ _ same.source
  have shownTarget : toString edge.target = toString edge'.target := printed _ _ same.target
  unfold Dag.addEdge
  rw [source, target]
  cases other.hasEndpoint edge'.source with
  | false =>
      refine .inr ⟨_, _, rfl, rfl, ?_⟩
      simp only [DagError.message, same.name, shownSource, related.level.name]
  | true =>
      cases other.hasEndpoint edge'.target with
      | false =>
          refine .inr ⟨_, _, rfl, rfl, ?_⟩
          simp only [DagError.message, same.name, shownTarget, related.level.name]
      | true => exact .inl ⟨_, _, rfl, rfl, related.insertEdge unique same, rfl, rfl⟩

end Corresponds

end Dag

end RecipeGraph
