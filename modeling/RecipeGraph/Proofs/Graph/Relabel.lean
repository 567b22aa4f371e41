/-
# Graphs with new identifiers at every place

Nothing keeps two levels of a graph from using the same identifier, or an edge from having that of a
node. What a function from identifiers to identifiers could not tell apart, places can: the graph
itself, the elements and the edges of its level, and the same one level further down, where the way
to a level is given by the identifiers of the levels around. Giving every place a new identifier
changes nothing else, and the ends of edges and what variables stand for go along with the elements.

If different places get different identifiers, no question that does not ask for identifiers has
another answer afterwards. If on the other hand the old identifiers were different at all places,
giving out new ones is renaming them.
-/

import RecipeGraph.Dag.Dump
import RecipeGraph.Dag.Inspect
import RecipeGraph.Proofs.Data.Extension
import RecipeGraph.Proofs.Graph.Consistent
import RecipeGraph.Proofs.Graph.Rename

namespace RecipeGraph

/-! ### Maps with new keys -/

namespace OrderedMap

variable {κ κ' ν ν' : Type} {map : OrderedMap κ ν}

@[simp] theorem keys_mapEntries (key : κ → κ') (value : ν → ν') :
    (map.mapEntries key value).keys = map.keys.map key := by
  simp [mapEntries, keys, Function.comp_def]

@[simp] theorem values_mapEntries (key : κ → κ') (value : ν → ν') :
    (map.mapEntries key value).values = map.values.map value := by
  simp [mapEntries, values, Function.comp_def]

theorem mapEntries_congr {key other : κ → κ'} {value other_value : ν → ν'}
    (keys : ∀ one ∈ map.keys, key one = other one)
    (values : ∀ one ∈ map.values, value one = other_value one) :
    map.mapEntries key value = map.mapEntries other other_value := by
  refine congrArg OrderedMap.mk (List.map_congr_left fun entry held => Prod.ext ?_ ?_)
  · exact keys _ (List.mem_map_of_mem held)
  · exact values _ (List.mem_map_of_mem held)

/-- A key that no other key is confused with is found where it was. -/
theorem get?_mapEntries [DecidableEq κ] [DecidableEq κ'] (renamed : κ → κ') (value : ν → ν')
    {key : κ} (apart : ∀ other ∈ map.keys, renamed other = renamed key → other = key) :
    (map.mapEntries renamed value).get? (renamed key) = (map.get? key).map value := by
  obtain ⟨entries⟩ := map
  show lookup (renamed key) (entries.map (Prod.map renamed value)) = (lookup key entries).map value
  induction entries with
  | nil => rfl
  | cons entry rest step =>
      obtain ⟨here, stored⟩ := entry
      obtain ⟨first, later⟩ := List.forall_mem_cons.1 apart
      by_cases same : here = key
      · simp [lookup, same]
      · have different : renamed here ≠ renamed key := fun confused => same (first confused)
        simpa [lookup, same, different] using step later

end OrderedMap

namespace Dag

/-! ### Places -/

/-- What has an identifier in a graph. The elements and edges of a nested level stand behind the
identifiers of the levels that lead there; the nested level itself is an element of the level around
it. -/
inductive Place where
  | root
  | element (way : List Id) (id : Id)
  | edge (way : List Id) (id : Id)
deriving DecidableEq, Repr

namespace Place

/-- A place of a nested level, seen from the level around. -/
def under (key : Id) : Place → Place
  | .root => .element [] key
  | .element way id => .element (key :: way) id
  | .edge way id => .edge (key :: way) id

theorem under_injective (key : Id) : Function.Injective (under key) := by
  rintro (_ | ⟨way, id⟩ | ⟨way, id⟩) (_ | ⟨way', id'⟩ | ⟨way', id'⟩) same <;>
    simp_all [under]

/-- The identifier at a place of a graph, given the one of the graph itself. -/
def label (own : Id) : Place → Id
  | .root => own
  | .element _ id => id
  | .edge _ id => id

@[simp] theorem label_root (own : Id) : Place.root.label own = own := rfl

@[simp] theorem label_element (own : Id) (way : List Id) (id : Id) :
    (Place.element way id).label own = id := rfl

@[simp] theorem label_edge (own : Id) (way : List Id) (id : Id) :
    (Place.edge way id).label own = id := rfl

@[simp] theorem label_under (own key : Id) (place : Place) :
    (place.under key).label own = place.label key := by
  cases place <;> rfl

end Place

mutual

/-- The places of a graph, in the order in which it defines its identifiers. -/
def places : Dag → List Place
  | ⟨_, _, _, _, nodes, edges, ⟨children⟩, _, _, _, _, _⟩ =>
    .root :: (nodes.keys.map (.element []) ++ edges.keys.map (.edge []) ++ nestedPlaces children)
termination_by structural dag => dag

/-- The places of nested graphs. -/
def nestedPlaces : List (Id × Dag) → List Place
  | [] => []
  | (_, child) :: rest => (places child).map (.under child.id) ++ nestedPlaces rest
termination_by structural children => children

end

mutual

/-- Gives every place of a graph the identifier that it is to have. -/
def relabel (renamed : Place → Id) : Dag → Dag
  | ⟨_, name, parent, style, nodes, edges, ⟨children⟩, styles, bindings, variableIds,
      variableStyles, imports⟩ =>
    let here := fun id => renamed (.element [] id)
    { id := renamed .root
      name := name
      parent := parent
      style := style
      nodes := nodes.mapEntries here (·.rename here)
      edges := edges.mapEntries (fun id => renamed (.edge [] id)) fun edge =>
        { edge.rename here with id := renamed (.edge [] edge.id) }
      children := ⟨relabelAll renamed children⟩
      styles := styles
      bindings := bindings
      variableIds := variableIds.mapValues here
      variableStyles := variableStyles
      imports := imports }
termination_by structural dag => dag

/-- Gives every place of nested graphs its identifier, and tells them the new one of the graph
around. -/
def relabelAll (renamed : Place → Id) : List (Id × Dag) → List (Id × Dag)
  | [] => []
  | (key, child) :: rest =>
    (renamed (.element [] key),
      (relabel (fun place => renamed (place.under child.id)) child).withParent (renamed .root)) ::
      relabelAll renamed rest
termination_by structural children => children

end

/-- What becomes of a nested graph. -/
def relabelChild (renamed : Place → Id) (child : Dag) : Dag :=
  (child.relabel fun place => renamed (place.under child.id)).withParent (renamed .root)

theorem relabel_eq (renamed : Place → Id) (dag : Dag) :
    dag.relabel renamed =
      { dag with
        id := renamed .root
        nodes := dag.nodes.mapEntries (fun id => renamed (.element [] id))
          (·.rename fun id => renamed (.element [] id))
        edges := dag.edges.mapEntries (fun id => renamed (.edge [] id)) fun edge =>
          { edge.rename (fun id => renamed (.element [] id)) with id := renamed (.edge [] edge.id) }
        children := dag.children.mapEntries (fun id => renamed (.element [] id))
          (relabelChild renamed)
        variableIds := dag.variableIds.mapValues fun id => renamed (.element [] id) } := by
  obtain ⟨_, _, _, _, _, _, ⟨children⟩, _, _, _, _, _⟩ := dag
  have all : ∀ children : List (Id × Dag), relabelAll renamed children =
      children.map (Prod.map (fun id => renamed (.element [] id)) (relabelChild renamed)) := by
    intro children
    induction children with
    | nil => rfl
    | cons entry rest step => exact congrArg _ step
  rw [relabel, all]
  rfl

theorem places_eq (dag : Dag) :
    dag.places = .root :: (dag.nodes.keys.map (.element []) ++ dag.edges.keys.map (.edge []) ++
      dag.children.values.flatMap fun child => child.places.map (.under child.id)) := by
  obtain ⟨_, _, _, _, _, _, ⟨children⟩, _, _, _, _, _⟩ := dag
  have all : ∀ children : List (Id × Dag), nestedPlaces children =
      (children.map Prod.snd).flatMap fun child => child.places.map (.under child.id) := by
    intro children
    induction children with
    | nil => rfl
    | cons entry rest step => rw [nestedPlaces, step, List.map_cons, List.flatMap_cons]
  rw [places, all]
  rfl

theorem ids_eq_flatMap (dag : Dag) :
    dag.ids = dag.id :: (dag.nodes.keys ++ dag.edges.keys ++ dag.children.values.flatMap ids) := by
  rw [ids_eq, innerIds, nestedIds_eq_flatMap, OrderedMap.values, List.flatMap_map]

/-- The identifiers afterwards are those given to the places. -/
theorem ids_relabel (renamed : Place → Id) (dag : Dag) :
    (dag.relabel renamed).ids = dag.places.map renamed := by
  induction dag using Dag.rise generalizing renamed with
  | step dag below =>
      have nested : ∀ child ∈ dag.children.values,
          (relabelChild renamed child).ids =
            child.places.map fun place => renamed (place.under child.id) := by
        intro child held
        rw [relabelChild, ids_withParent, below child held]
      rw [relabel_eq, ids_eq_flatMap, places_eq]
      simp only [OrderedMap.keys_mapEntries, OrderedMap.values_mapEntries, List.flatMap_map,
        List.map_cons, List.map_append, List.map_map, List.map_flatMap, Function.comp_def]
      congr 2
      exact List.flatMap_congr nested

/-- What stands at the places of a graph are its identifiers. -/
theorem map_label_places (dag : Dag) : dag.places.map (Place.label dag.id) = dag.ids := by
  induction dag using Dag.rise with
  | step dag below =>
      rw [places_eq, ids_eq_flatMap]
      simp only [List.map_cons, List.map_append, List.map_map, List.map_flatMap, Function.comp_def,
        Place.label_root, Place.label_element, Place.label_edge, Place.label_under, List.map_id']
      congr 2
      exact List.flatMap_congr fun child held => below child held

/-! ### Graphs in which every place can be told from the others -/

/-- A consistent level on which an identifier belongs to one element at most and to one edge at
most, and variables stand for its own elements. Other levels may use the same identifiers. -/
structure Unambiguous (dag : Dag) : Prop extends Consistent dag where
  elements_distinct : dag.elements.Nodup
  edges_distinct : dag.edges.Distinct
  variables_bound : ∀ id ∈ dag.variableIds.values, id ∈ dag.elements

/-- Every level of the graph is unambiguous. -/
def UnambiguousThroughout (dag : Dag) : Prop :=
  ∀ level, dag.HasLevel level → level.Unambiguous

namespace UnambiguousThroughout

variable {dag inner : Dag}

theorem root (clear : dag.UnambiguousThroughout) : dag.Unambiguous :=
  clear dag .self

theorem child (clear : dag.UnambiguousThroughout) (nested : inner ∈ dag.children.values) :
    inner.UnambiguousThroughout := fun level deeper => clear level (.inside nested deeper)

end UnambiguousThroughout

section Places

variable {dag inner : Dag} {id : Id}

theorem root_mem_places (dag : Dag) : .root ∈ dag.places := by
  rw [places_eq]
  exact List.mem_cons_self

theorem element_mem_places (keyed : ∀ entry ∈ dag.children.entries, entry.1 = entry.2.id)
    (held : id ∈ dag.elements) : .element [] id ∈ dag.places := by
  rw [places_eq]
  refine List.mem_cons_of_mem _ ?_
  rcases mem_elements.1 held with node | nested
  · exact List.mem_append_left _ (List.mem_append_left _ (List.mem_map_of_mem node))
  · rw [OrderedMap.keys, keys_of_keyed keyed] at nested
    obtain ⟨entry, inside, rfl⟩ := List.mem_map.1 nested
    refine List.mem_append_right _ (List.mem_flatMap.2 ⟨entry.2, List.mem_map_of_mem inside, ?_⟩)
    exact List.mem_map.2 ⟨.root, root_mem_places entry.2, rfl⟩

theorem edge_mem_places (held : id ∈ dag.edges.keys) : .edge [] id ∈ dag.places := by
  rw [places_eq]
  exact List.mem_cons_of_mem _
    (List.mem_append_left _ (List.mem_append_right _ (List.mem_map_of_mem held)))

theorem under_mem_places (nested : inner ∈ dag.children.values) {place : Place}
    (held : place ∈ inner.places) : place.under inner.id ∈ dag.places := by
  rw [places_eq]
  refine List.mem_cons_of_mem _ (List.mem_append_right _ ?_)
  exact List.mem_flatMap.2 ⟨inner, nested, List.mem_map_of_mem held⟩

/-- Different places of the graph get different identifiers. -/
def TellsApart (renamed : Place → Id) (dag : Dag) : Prop :=
  Set.InjOn renamed {place | place ∈ dag.places}

variable {renamed : Place → Id}

theorem TellsApart.child (apart : dag.TellsApart renamed) (nested : inner ∈ dag.children.values) :
    inner.TellsApart fun place => renamed (place.under inner.id) := by
  intro place held other held' same
  exact Place.under_injective inner.id
    (apart (under_mem_places nested held) (under_mem_places nested held') same)

theorem TellsApart.element (apart : dag.TellsApart renamed) (here : dag.Unambiguous) {other : Id}
    (held : id ∈ dag.elements) (held' : other ∈ dag.elements)
    (same : renamed (.element [] other) = renamed (.element [] id)) : other = id := by
  have places := apart (element_mem_places here.children_keyed held')
    (element_mem_places here.children_keyed held) same
  cases places
  rfl

end Places

/-! ### Renaming -/

/-- Where the places of a graph get their identifiers by the old ones, it is renamed. -/
theorem relabel_eq_rename {dag : Dag} {renamed : Place → Id} {changed : Id → Id}
    (clear : dag.UnambiguousThroughout)
    (follows : ∀ place ∈ dag.places, renamed place = changed (place.label dag.id)) :
    dag.relabel renamed = { dag.rename changed with parent := dag.parent } := by
  induction dag using Dag.rise generalizing renamed with
  | step dag below =>
      have here := clear.root
      have element {id : Id} (held : id ∈ dag.elements) : renamed (.element [] id) = changed id :=
        follows _ (element_mem_places here.children_keyed held)
      have edge {id : Id} (held : id ∈ dag.edges.keys) : renamed (.edge [] id) = changed id :=
        follows _ (edge_mem_places held)
      have nodes : dag.nodes.mapEntries (fun id => renamed (.element [] id))
          (·.rename fun id => renamed (.element [] id)) =
            dag.nodes.mapEntries changed (·.rename changed) := by
        refine OrderedMap.mapEntries_congr (fun id held => element (mem_elements.2 (.inl held)))
          fun node held => Node.ext ?_ rfl rfl
        exact element (mem_elements.2 (.inl (OrderedMap.key_mem_keys here.nodes_keyed held)))
      have edges : dag.edges.mapEntries (fun id => renamed (.edge [] id)) (fun edge =>
          { edge.rename (fun id => renamed (.element [] id)) with
            id := renamed (.edge [] edge.id) }) =
            dag.edges.mapEntries changed (·.rename changed) := by
        refine OrderedMap.mapEntries_congr (fun id => edge) fun one held => ?_
        obtain ⟨source, target⟩ := here.edges_joined one held
        exact Edge.ext (edge (OrderedMap.key_mem_keys here.edges_keyed held)) rfl
          (element (hasEndpoint_iff.1 source)) (element (hasEndpoint_iff.1 target)) rfl
      have children : dag.children.mapEntries (fun id => renamed (.element [] id))
          (relabelChild renamed) = dag.children.mapEntries changed (·.rename changed) := by
        refine OrderedMap.mapEntries_congr (fun id held => element (mem_elements.2 (.inr held)))
          fun child nested => ?_
        have parent : (child.rename changed).parent = some (renamed .root) := by
          rw [rename_eq, here.children_placed child nested]
          exact congrArg some (follows .root dag.root_mem_places).symm
        have deeper : ∀ place ∈ child.places, renamed (place.under child.id) =
            changed (place.label child.id) := fun place held => by
          rw [follows _ (under_mem_places nested held), Place.label_under]
        rw [relabelChild, below child nested (clear.child nested) deeper, withParent, ← parent]
        cases child.rename changed
        rfl
      have bound : (dag.variableIds.mapValues fun id => renamed (.element [] id)) =
          dag.variableIds.mapValues changed := by
        refine congrArg OrderedMap.mk (List.map_congr_left fun entry held => Prod.ext rfl ?_)
        exact element (here.variables_bound entry.2 (List.mem_map_of_mem held))
      rw [relabel_eq, rename_eq, nodes, edges, children, bound, follows .root dag.root_mem_places]
      rfl

theorem ids_rename (changed : Id → Id) (dag : Dag) :
    (dag.rename changed).ids = dag.ids.map changed := by
  induction dag using Dag.rise with
  | step dag below =>
      rw [rename_eq, ids_eq_flatMap, ids_eq_flatMap]
      simp only [OrderedMap.keys_mapEntries, OrderedMap.values_mapEntries, List.flatMap_map,
        List.map_cons, List.map_append, List.map_flatMap]
      congr 2
      exact List.flatMap_congr below

/-! ### What does not depend on identifiers -/

section Views

variable {dag : Dag} {renamed : Place → Id}

/-- An element is still found, with what has become of it. -/
theorem get?_nodes_relabel (here : dag.Unambiguous) (apart : dag.TellsApart renamed) {id : Id}
    (held : id ∈ dag.elements) :
    (dag.relabel renamed).nodes.get? (renamed (.element [] id)) =
      (dag.nodes.get? id).map (·.rename fun id => renamed (.element [] id)) := by
  rw [relabel_eq]
  exact OrderedMap.get?_mapEntries (fun id => renamed (.element [] id)) _
    fun other node => apart.element here held (mem_elements.2 (.inl node))

theorem get?_children_relabel (here : dag.Unambiguous) (apart : dag.TellsApart renamed) {id : Id}
    (held : id ∈ dag.elements) :
    (dag.relabel renamed).children.get? (renamed (.element [] id)) =
      (dag.children.get? id).map (relabelChild renamed) := by
  rw [relabel_eq]
  exact OrderedMap.get?_mapEntries (fun id => renamed (.element [] id)) _
    fun other nested => apart.element here held (mem_elements.2 (.inr nested))

theorem values_edges_relabel (renamed : Place → Id) (dag : Dag) :
    (dag.relabel renamed).edges.values = dag.edges.values.map fun edge =>
      { edge.rename (fun id => renamed (.element [] id)) with
        id := renamed (.edge [] edge.id) } := by
  rw [relabel_eq, OrderedMap.values_mapEntries]

theorem values_children_relabel (renamed : Place → Id) (dag : Dag) :
    (dag.relabel renamed).children.values = dag.children.values.map (relabelChild renamed) := by
  rw [relabel_eq, OrderedMap.values_mapEntries]

theorem get?_variableIds_relabel (renamed : Place → Id) (dag : Dag) (name : String) :
    (dag.relabel renamed).variableIds.get? name =
      (dag.variableIds.get? name).map fun id => renamed (.element [] id) := by
  rw [relabel_eq, OrderedMap.get?_mapValues]

theorem name_relabel (renamed : Place → Id) (dag : Dag) :
    (dag.relabel renamed).name = dag.name := by
  rw [relabel_eq]

theorem style_relabel (renamed : Place → Id) (dag : Dag) :
    (dag.relabel renamed).style = dag.style := by
  rw [relabel_eq]

theorem elementName?_relabel (here : dag.Unambiguous) (apart : dag.TellsApart renamed) {id : Id}
    (held : id ∈ dag.elements) :
    (dag.relabel renamed).elementName? (renamed (.element [] id)) = dag.elementName? id := by
  rw [elementName?, get?_nodes_relabel here apart held, get?_children_relabel here apart held,
    Option.map_map, elementName?]
  have names : name ∘ relabelChild renamed = name := funext fun child => name_relabel _ child
  rw [names]
  cases dag.nodes.get? id with
  | none => rfl
  | some node => rfl

theorem nodeNames_relabel (renamed : Place → Id) (dag : Dag) :
    (dag.relabel renamed).nodeNames = dag.nodeNames := by
  rw [nodeNames, relabel_eq, OrderedMap.values_mapEntries, List.map_map]
  rfl

/-- The edges join elements of the same names. -/
theorem edgeNamePairs_relabel (here : dag.Unambiguous) (apart : dag.TellsApart renamed) :
    (dag.relabel renamed).edgeNamePairs = dag.edgeNamePairs := by
  rw [edgeNamePairs, values_edges_relabel, List.map_map, edgeNamePairs]
  refine congrArg (List.mergeSort · pairLe) (List.map_congr_left fun edge held => ?_)
  obtain ⟨source, target⟩ := here.edges_joined edge held
  rw [hasEndpoint_iff] at source target
  show ((elementName? _ (renamed (.element [] edge.source))).getD "",
    (elementName? _ (renamed (.element [] edge.target))).getD "") = _
  rw [elementName?_relabel here apart source, elementName?_relabel here apart target]

theorem dumpLines_eq (dag : Dag) (indent : String) :
    dag.dumpLines indent = dag.ownLines indent ++ dag.children.values.flatMap fun child =>
      (indent ++ "Dag: " ++ child.name) :: child.style.lines indent ++
        child.dumpLines (indent ++ "\t") := by
  obtain ⟨_, _, _, _, _, _, ⟨children⟩, _, _, _, _, _⟩ := dag
  have all : ∀ children : List (Id × Dag), childLines children indent =
      (children.map Prod.snd).flatMap fun child =>
        (indent ++ "Dag: " ++ child.name) :: child.style.lines indent ++
          child.dumpLines (indent ++ "\t") := by
    intro children
    induction children with
    | nil => rfl
    | cons entry rest step => rw [childLines, step, List.map_cons, List.flatMap_cons]
  rw [dumpLines, all]
  rfl

theorem dumpLines_withParent (dag : Dag) (parent : Id) (indent : String) :
    (dag.withParent parent).dumpLines indent = dag.dumpLines indent := by
  rw [dumpLines_eq, dumpLines_eq]
  rfl

theorem ownLines_relabel (here : dag.Unambiguous) (apart : dag.TellsApart renamed)
    (indent : String) : (dag.relabel renamed).ownLines indent = dag.ownLines indent := by
  have edges : (dag.relabel renamed).edges.values.flatMap ((dag.relabel renamed).edgeLines indent) =
      dag.edges.values.flatMap (dag.edgeLines indent) := by
    rw [values_edges_relabel, List.flatMap_map]
    refine List.flatMap_congr fun edge held => ?_
    obtain ⟨source, target⟩ := here.edges_joined edge held
    rw [hasEndpoint_iff] at source target
    simp only [edgeLines, displayName, Edge.rename, elementName?_relabel here apart source,
      elementName?_relabel here apart target]
  have nodes : (dag.relabel renamed).nodes.values.flatMap (nodeLines indent) =
      dag.nodes.values.flatMap (nodeLines indent) := by
    rw [relabel_eq, OrderedMap.values_mapEntries, List.flatMap_map]
    rfl
  have styles : (dag.relabel renamed).styles = dag.styles := by rw [relabel_eq]
  have bindings : (dag.relabel renamed).bindings = dag.bindings := by rw [relabel_eq]
  rw [ownLines, nodes, edges, styles, bindings, ownLines]

theorem dumpLines_relabel (clear : dag.UnambiguousThroughout) (apart : dag.TellsApart renamed)
    (indent : String) : (dag.relabel renamed).dumpLines indent = dag.dumpLines indent := by
  induction dag using Dag.rise generalizing renamed indent with
  | step dag below =>
      rw [dumpLines_eq, dumpLines_eq dag, ownLines_relabel clear.root apart,
        values_children_relabel, List.flatMap_map]
      refine congrArg _ (List.flatMap_congr fun child nested => ?_)
      have deeper := below child nested (clear.child nested) (apart.child nested) (indent ++ "\t")
      simp only [relabelChild, dumpLines_withParent, deeper]
      simp only [withParent, name_relabel, style_relabel]

theorem dump_relabel (clear : dag.UnambiguousThroughout) (apart : dag.TellsApart renamed) :
    (dag.relabel renamed).dump = dag.dump := by
  rw [dump, dumpLines_relabel clear apart, dump]

/-- The first segment of a path selects what has become of the level that it selected before. -/
theorem childFor?_relabel (here : dag.Unambiguous) (apart : dag.TellsApart renamed)
    (segment : String) :
    (dag.relabel renamed).childFor? segment =
      (dag.childFor? segment).map (relabelChild renamed) := by
  have bound : ((dag.relabel renamed).variableIds.get? segment).bind
      (dag.relabel renamed).children.get? =
        ((dag.variableIds.get? segment).bind dag.children.get?).map (relabelChild renamed) := by
    rw [get?_variableIds_relabel]
    cases found : dag.variableIds.get? segment with
    | none => rfl
    | some id =>
        have held := here.variables_bound id (OrderedMap.mem_values_of_get? found)
        exact get?_children_relabel here apart held
  have named : (dag.relabel renamed).children.values.reverse.find? (·.name == segment) =
      (dag.children.values.reverse.find? (·.name == segment)).map (relabelChild renamed) := by
    have names : (fun child : Dag => child.name == segment) ∘ relabelChild renamed =
        fun child => child.name == segment :=
      funext fun child => congrArg (· == segment) (name_relabel _ child)
    rw [values_children_relabel, ← List.map_reverse, List.find?_map, names]
  rw [childFor?, bound, named, childFor?]
  cases (dag.variableIds.get? segment).bind dag.children.get? with
  | none => rfl
  | some child => rfl

variable (clear : dag.UnambiguousThroughout) (apart : dag.TellsApart renamed)
include clear apart

/-- A path leads to a variable or to none, as before. -/
theorem isSome_variableAt?_relabel (segments : List String) :
    (variableAt? segments (dag.relabel renamed)).isSome = (variableAt? segments dag).isSome := by
  induction segments generalizing dag renamed with
  | nil => rfl
  | cons segment rest step =>
      cases rest with
      | nil =>
          rw [variableAt?, get?_variableIds_relabel, Option.isSome_map]
          rfl
      | cons next rest =>
          rw [variableAt?, childFor?_relabel clear.root apart, Option.bind_map, variableAt?]
          cases selected : dag.childFor? segment with
          | none => rfl
          | some child =>
              have nested := childFor?_mem selected
              show (variableAt? _ (relabelChild renamed child)).isSome = _
              rw [relabelChild, variableAt?_withParent]
              exact step (clear.child nested) (apart.child nested)

theorem isSome_producer?_relabel (path : QualifiedPath) :
    ((dag.relabel renamed).producer? path).isSome = (dag.producer? path).isSome := by
  unfold producer?
  split
  · rfl
  · rw [get?_variableIds_relabel, Option.isSome_map]
  · next segment next rest _ =>
      rw [childFor?_relabel clear.root apart]
      cases selected : dag.childFor? segment with
      | none => rfl
      | some child =>
          have nested := childFor?_mem selected
          show ((variableAt? _ (relabelChild renamed child)).map _).isSome = _
          rw [Option.isSome_map, Option.isSome_map, relabelChild, variableAt?_withParent]
          exact isSome_variableAt?_relabel (clear.child nested) (apart.child nested) _

theorem variableStyleAt?_relabel (segments : List String) :
    variableStyleAt? segments (dag.relabel renamed) = variableStyleAt? segments dag := by
  induction segments generalizing dag renamed with
  | nil => rfl
  | cons segment rest step =>
      cases rest with
      | nil =>
          rw [variableStyleAt?, relabel_eq]
          rfl
      | cons next rest =>
          rw [variableStyleAt?, childFor?_relabel clear.root apart, Option.bind_map,
            variableStyleAt?]
          cases selected : dag.childFor? segment with
          | none => rfl
          | some child =>
              have nested := childFor?_mem selected
              show variableStyleAt? _ (relabelChild renamed child) = _
              rw [relabelChild, variableStyleAt?_withParent]
              exact step (clear.child nested) (apart.child nested)

theorem styleAt?_relabel (segments : List String) :
    styleAt? segments (dag.relabel renamed) = styleAt? segments dag := by
  induction segments generalizing dag renamed with
  | nil => rfl
  | cons segment rest step =>
      have styles : (dag.relabel renamed).styles = dag.styles := by rw [relabel_eq]
      cases rest with
      | nil => rw [styleAt?, styles, styleAt?]
      | cons next rest =>
          have deeper : ((dag.relabel renamed).childFor? segment).bind (styleAt? (next :: rest)) =
              (dag.childFor? segment).bind (styleAt? (next :: rest)) := by
            rw [childFor?_relabel clear.root apart, Option.bind_map]
            cases selected : dag.childFor? segment with
            | none => rfl
            | some child =>
                have nested := childFor?_mem selected
                show styleAt? _ (relabelChild renamed child) = styleAt? _ child
                rw [relabelChild, styleAt?_withParent]
                exact step (clear.child nested) (apart.child nested)
          rw [styleAt?, styles, deeper, styleAt?]

end Views

end Dag

end RecipeGraph
