/-
# Building in a level that is absorbed afterwards

A level that is built in an empty scope may be merged into another one when it is finished. It comes
to the same to build it there from the start, provided that what is looked up is found in the level
itself. Two things could get in the way. A variable of the other level that stands for a level there
comes before a nested level that has its name. And a style of the other level may have a name with a
dot in it, as if it were a path; names in texts have no dots.
-/

import RecipeGraph.Proofs.Build.Overlay
import RecipeGraph.Proofs.Graph.Merging

namespace RecipeGraph

/-- A name without a dot. -/
def Undotted (name : String) : Prop :=
  QualifiedPath.separator ∉ name.toList

namespace QualifiedPath

/-- A path of several segments is no name. -/
theorem not_undotted_join (segment next : String) (rest : List String) :
    ¬ Undotted (joinSegments (segment :: next :: rest)) := by
  simp [Undotted, joinSegments]

end QualifiedPath

namespace Dag

theorem Tidy.mapped {dag : Dag} (tidy : dag.Tidy) : dag.Mapped :=
  { tidy with }

section Absorbing

variable {base dag : Dag}

/-! ### Registering in a level that is absorbed -/

theorem merge_addNode (tidy : dag.Tidy) (node : Node) :
    base.merge (dag.addNode node) = (base.merge dag).addNode node := by
  rw [merge_eq base (dag.addNode node) tidy.children_keyed, merge_eq base dag tidy.children_keyed]
  simp only [addNode, OrderedMap.extend_insert _ tidy.nodes]

theorem merge_insertEdge (tidy : dag.Tidy) (edge : Edge) :
    base.merge { dag with edges := dag.edges.insert edge.id edge } =
      { base.merge dag with edges := (base.merge dag).edges.insert edge.id edge } := by
  rw [merge_eq base { dag with edges := dag.edges.insert edge.id edge } tidy.children_keyed,
    merge_eq base dag tidy.children_keyed]
  simp only [OrderedMap.extend_insert _ tidy.edges]

theorem merge_attach (tidy : dag.Tidy) (child : Dag) :
    base.merge (dag.attach child) = (base.merge dag).attach child := by
  rw [merge_eq base (dag.attach child) (keyed_attach tidy.children_keyed child),
    merge_eq base dag tidy.children_keyed]
  simp only [attach, OrderedMap.mapValues_insert,
    OrderedMap.extend_insert _ (tidy.children.mapValues _)]
  rfl

theorem merge_bind (tidy : dag.Tidy) (name : String) (id : Id) (style : Option Style) :
    base.merge ((dag.setVariable name id).setVariableStyle name style) =
      ((base.merge dag).setVariable name id).setVariableStyle name style := by
  rw [merge_eq base ((dag.setVariable name id).setVariableStyle name style) tidy.children_keyed,
    merge_eq base dag tidy.children_keyed]
  simp only [setVariable, setVariableStyle, OrderedMap.extend_insert _ tidy.variableIds,
    OrderedMap.extend_insert _ tidy.variableStyles]

theorem merge_setStyle (tidy : dag.Tidy) (name : String) (properties : StyleProperties) :
    base.merge (dag.setStyle name properties) = (base.merge dag).setStyle name properties := by
  rw [merge_eq base (dag.setStyle name properties) tidy.children_keyed,
    merge_eq base dag tidy.children_keyed]
  simp only [setStyle, OrderedMap.extend_insert _ tidy.styles]

theorem merge_bindStyles (tidy : dag.Tidy) (keyword : String) (tags : List QualifiedPath) :
    base.merge (dag.bindStyles keyword tags) = (base.merge dag).bindStyles keyword tags := by
  rw [merge_eq base (dag.bindStyles keyword tags) tidy.children_keyed,
    merge_eq base dag tidy.children_keyed]
  simp only [bindStyles, OrderedMap.extend_insert _ tidy.bindings]

theorem merge_addImport (tidy : dag.Tidy) (location : String) :
    base.merge (dag.addImport location) = (base.merge dag).addImport location := by
  rw [merge_eq base (dag.addImport location) tidy.children_keyed,
    merge_eq base dag tidy.children_keyed]
  simp only [addImport, OrderedSet.extend_insert]

/-! ### Looking up in a level that is absorbed -/

/-- The second level may be absorbed by the first one without a change to what its own paths lead
to: the two have no element in common, and no variable of the first one stands for a level there
under the name of a level of the second one. -/
structure Absorbs (base dag : Dag) : Prop where
  apart : ∀ id ∈ base.elements, id ∉ dag.elements
  clear : ∀ child ∈ dag.children.values, ∀ id, base.variableIds.get? child.name = some id →
    id ∉ base.children.keys

theorem Absorbs.of_change {named : String → Prop} {absorbed : Dag → Prop} {changed : Dag}
    (absorbs : base.Absorbs changed) (change : dag.Change named absorbed changed) :
    base.Absorbs dag where
  apart id held := fun inside => absorbs.apart id held (change.elements_subset inside)
  clear child nested := by
    obtain ⟨entry, held, rfl⟩ := List.mem_map.1 nested
    exact absorbs.clear _ (List.mem_map_of_mem (change.children_subset held))

/-- What may be absorbed has no nested level in common with the level that absorbs it. -/
theorem Absorbs.childrenApart (absorbs : base.Absorbs dag) (based : base.Tidy) (tidy : dag.Tidy) :
    base.ChildrenApart dag where
  apart id held inside :=
    absorbs.apart id (mem_elements.2 (.inr held)) (mem_elements.2 (.inr inside))
  base_binds _ id bound inside := absorbs.apart id
    (based.variables_bound id (OrderedMap.mem_values_of_get? bound)) (mem_elements.2 (.inr inside))
  other_binds _ id bound inside := absorbs.apart id (mem_elements.2 (.inr inside))
    (tidy.variables_bound id (OrderedMap.mem_values_of_get? bound))

/-- No variable hides a name that selects a level. -/
theorem Absorbs.not_hides (absorbs : base.Absorbs dag) {segment : String} {child : Dag}
    (found : dag.childFor? segment = some child) : ¬ base.Hides dag segment := by
  rintro ⟨unbound, id, inside, bound⟩
  rw [childFor?, unbound] at found
  have nested := List.mem_reverse.1 (List.mem_of_find?_eq_some found)
  obtain rfl : child.name = segment := by simpa using List.find?_some found
  exact absorbs.clear child nested id bound inside

/-- A segment that selects a level selects the same one when that has been absorbed. -/
theorem childFor?_merge (based : base.Tidy) (tidy : dag.Tidy) (absorbs : base.Absorbs dag)
    {segment : String} {child : Dag} (found : dag.childFor? segment = some child) :
    (base.merge dag).childFor? segment = some (child.withParent base.id) :=
  childFor?_merge_of_clear tidy.mapped (absorbs.childrenApart based tidy) (absorbs.not_hides found)
    found

/-! ### The overlay -/

section Lookups

variable (based : base.Tidy) (tidy : dag.Tidy) (absorbs : base.Absorbs dag)

include based tidy absorbs

theorem producer?_merge {path : QualifiedPath} {id : Id} (found : dag.producer? path = some id) :
    (base.merge dag).producer? path = some id := by
  obtain ⟨segments⟩ := path
  match segments with
  | [] => nomatch found
  | [name] =>
      have bound : dag.variableIds.get? name = some id := found
      show (base.merge dag).variableIds.get? name = some id
      rw [variableIds_merge, OrderedMap.get?_extend _ tidy.variableIds, bound, Option.some_or]
  | segment :: next :: rest =>
      unfold producer? at found ⊢
      dsimp only at found ⊢
      cases selected : dag.childFor? segment with
      | none =>
          rw [selected] at found
          cases found
      | some child =>
          rw [selected] at found
          rw [childFor?_merge based tidy absorbs selected]
          dsimp only
          rw [variableAt?_withParent]
          exact found

theorem variableStyle?_merge {path : QualifiedPath} {id : Id} (found : dag.producer? path = some id) :
    (base.merge dag).variableStyle? path = dag.variableStyle? path := by
  obtain ⟨segments⟩ := path
  match segments with
  | [] => rfl
  | [name] =>
      have held : name ∈ dag.variableStyles.keys :=
        tidy.names_shared ▸ List.mem_map_of_mem (OrderedMap.mem_of_get? found)
      obtain ⟨style, kept⟩ := OrderedMap.exists_get?_of_mem_keys held
      show ((base.merge dag).variableStyles.get? name).join = (dag.variableStyles.get? name).join
      rw [variableStyles_merge, OrderedMap.get?_extend _ tidy.variableStyles, kept, Option.some_or]
  | segment :: next :: rest =>
      unfold producer? at found
      dsimp only at found
      cases selected : dag.childFor? segment with
      | none =>
          rw [selected] at found
          cases found
      | some child =>
          show ((base.merge dag).childFor? segment).bind _ = (dag.childFor? segment).bind _
          rw [childFor?_merge based tidy absorbs selected, selected, Option.bind_some,
            Option.bind_some, variableStyleAt?_withParent]

/-- Names have no dots, so that no style of the other level is found where a path leads further. -/
theorem style?_merge (named : base.StylesNamed Undotted) {tag : QualifiedPath}
    {properties : StyleProperties} (found : dag.style? tag = some properties) :
    (base.merge dag).style? tag = some properties := by
  obtain ⟨segments⟩ := tag
  match segments with
  | [] => nomatch found
  | [name] =>
      have kept : dag.styles.get? name = some properties := found
      show (base.merge dag).styles.get? name = some properties
      rw [styles_merge, OrderedMap.get?_extend _ tidy.styles, kept, Option.some_or]
  | segment :: next :: rest =>
      have absent : base.styles.get? (QualifiedPath.joinSegments (segment :: next :: rest)) = none :=
        OrderedMap.get?_eq_none fun held =>
          QualifiedPath.not_undotted_join segment next rest (named _ held)
      unfold style? styleAt? at found ⊢
      rw [styles_merge, OrderedMap.get?_extend _ tidy.styles, absent, Option.or_none]
      cases whole : dag.styles.get? (QualifiedPath.joinSegments (segment :: next :: rest)) with
      | some style =>
          rw [whole] at found
          exact found
      | none =>
          rw [whole] at found
          obtain ⟨child, selected, deeper⟩ := Option.bind_eq_some_iff.1 found
          dsimp only
          rw [childFor?_merge based tidy absorbs selected, Option.bind_some, styleAt?_withParent]
          exact deeper

end Lookups

/-- The codes of warnings that are given where the level that absorbs might have helped. -/
def Unaided (code : ErrorCode) : Prop :=
  code = .undefinedVariable ∨ code = .unresolvedPath ∨ code = .undefinedStyleTag ∨
    code = .malformedEdge

/-- Absorbing a level goes unnoticed while the level is built, as long as no warning tells of
something that is missing there. -/
theorem overlay_merge (based : base.Tidy) (named : base.StylesNamed Undotted) :
    Overlay base.merge Unaided base.Absorbs where
  addNode node tidy := merge_addNode tidy node
  addEdge {dag} edge tidy := by
    cases added : dag.addEdge edge with
    | error reason => exact .inr ⟨⟨reason, rfl⟩, .inr (.inr (.inr rfl))⟩
    | ok changed =>
        obtain ⟨source, target, rfl⟩ := addEdge_ok added
        have elements : ∀ {id}, id ∈ dag.elements → id ∈ (base.merge dag).elements := fun held =>
          (mem_elements_merge tidy.children_keyed).2 (.inr held)
        rw [addEdge_eq (elements source) (elements target), ← merge_insertEdge tidy]
        exact .inl rfl
  attach child tidy := merge_attach tidy child
  merge other tidy := merge_merge tidy.mapped other
  bind name id style tidy := merge_bind tidy name id style
  setStyle name properties tidy := merge_setStyle tidy name properties
  bindStyles keyword tags tidy := merge_bindStyles tidy keyword tags
  addImport location tidy := merge_addImport tidy location
  producer? {dag} path tidy absorbs := by
    cases found : dag.producer? path with
    | none => exact .inr ⟨rfl, .inl rfl, .inr (.inl rfl)⟩
    | some id => exact .inl (producer?_merge based tidy absorbs found)
  variableStyle? tidy absorbs found := variableStyle?_merge based tidy absorbs found
  style? {dag} tag tidy absorbs := by
    cases found : dag.style? tag with
    | none => exact .inr ⟨rfl, .inr (.inr (.inl rfl))⟩
    | some properties => exact .inl (style?_merge based tidy absorbs named found)
  fits_of_change change absorbs := absorbs.of_change change

end Absorbing

end Dag

end RecipeGraph
