/-
# New identifiers stay apart

A supply counts upwards, so the identifiers that it hands out in one stretch of work are not those
of another stretch. A graph all of whose identifiers come from one stretch, each defined once, can
be nested in a graph from an earlier stretch, or merged into it, without a clash.
-/

import Mathlib.Data.List.Nodup
import RecipeGraph.Proofs.Graph.Sound

namespace RecipeGraph

namespace IdSupply

/-- The identifier was handed out while the supply went from one state to the other. -/
def Between (start stop : IdSupply) (id : Id) : Prop :=
  ∃ serial, id = .minted serial ∧ start.next ≤ serial ∧ serial < stop.next

theorem between_take (supply : IdSupply) : Between supply supply.take.2 supply.take.1 :=
  ⟨supply.next, rfl, Nat.le_refl _, Nat.lt_succ_self _⟩

theorem next_le_take (supply : IdSupply) : supply.next ≤ supply.take.2.next :=
  Nat.le_succ _

namespace Between

variable {start middle stop : IdSupply} {id : Id}

theorem widen {start' stop' : IdSupply} (between : Between start stop id)
    (earlier : start'.next ≤ start.next) (later : stop.next ≤ stop'.next) :
    Between start' stop' id := by
  obtain ⟨serial, same, low, high⟩ := between
  exact ⟨serial, same, Nat.le_trans earlier low, Nat.lt_of_lt_of_le high later⟩

/-- An identifier is handed out once. -/
theorem apart (before : Between start middle id) : ¬ Between middle stop id := by
  rintro ⟨serial, same, low, _⟩
  obtain ⟨serial', same', _, high⟩ := before
  have : serial = serial' := Id.minted.inj (same.symm.trans same')
  omega

theorem ne (before : Between start middle id) {id' : Id} (after : Between middle stop id') :
    id ≠ id' := fun same => before.apart (same ▸ after)

/-- Minted identifiers all print alike. -/
theorem render_eq (between : Between start stop id) : id.render = "<fresh>" := by
  obtain ⟨serial, rfl, _⟩ := between
  rfl

end Between

end IdSupply

namespace Dag

private theorem count_insert {ν : Type} {map : OrderedMap Id ν} {key : Id} {value : ν}
    (absent : key ∉ map.keys) (id : Id) :
    (map.insert key value).keys.count id = map.keys.count id + [key].count id := by
  rw [OrderedMap.keys_insert, if_neg absent, List.count_append]

/-- A node under a new identifier brings that identifier and no other. -/
theorem ids_addNode_perm {dag : Dag} {node : Node} (absent : node.id ∉ dag.nodes.keys) :
    (dag.addNode node).ids.Perm (node.id :: dag.ids) := by
  rw [List.perm_iff_count]
  intro id
  simp only [ids_eq, innerIds, addNode, List.count_cons, List.count_append, count_insert absent,
    List.count_nil]
  omega

theorem ids_insertEdge_perm {dag : Dag} {edge : Edge} (absent : edge.id ∉ dag.edges.keys) :
    (ids { dag with edges := dag.edges.insert edge.id edge }).Perm (edge.id :: dag.ids) := by
  rw [List.perm_iff_count]
  intro id
  simp only [ids_eq, innerIds, List.count_cons, List.count_append, count_insert absent,
    List.count_nil]
  omega

/-- A level under a new identifier brings what it defines itself. -/
theorem ids_attach_perm {dag child : Dag} (absent : child.id ∉ dag.children.keys) :
    (dag.attach child).ids.Perm (dag.ids ++ child.ids) := by
  rw [List.perm_iff_count]
  intro id
  have nested : nestedIds (dag.attach child).children.entries =
      nestedIds dag.children.entries ++ child.ids := by
    rw [attach, OrderedMap.entries_insert_of_absent absent, nestedIds_eq_flatMap,
      List.flatMap_append, nestedIds_eq_flatMap]
    simp
  rw [ids_eq, innerIds, nested, ids_eq dag, innerIds]
  simp only [attach, List.count_cons, List.count_append]
  omega

theorem ids_reidentify (dag : Dag) (id : Id) (name : String) :
    (dag.reidentify id name).ids = id :: dag.innerIds := by
  rw [ids_eq, innerIds, innerIds, nestedIds_eq_flatMap, nestedIds_eq_flatMap]
  simp [reidentify, OrderedMap.mapValues, List.flatMap_map]

theorem innerIds_nodup {dag : Dag} (distinct : dag.ids.Nodup) : dag.innerIds.Nodup := by
  rw [ids_eq, List.nodup_cons] at distinct
  exact distinct.2

/-- Where a graph defines every identifier once, so does each of its levels. -/
theorem HasLevel.ids_nodup {dag level : Dag} (has : dag.HasLevel level) (distinct : dag.ids.Nodup) :
    level.ids.Nodup := by
  induction has with
  | self => exact distinct
  | @inside dag child level nested _ step =>
      obtain ⟨entry, held, rfl⟩ := List.mem_map.1 nested
      have below : (nestedIds dag.children.entries).Nodup :=
        (List.nodup_append.1 (innerIds_nodup distinct)).2.1
      rw [nestedIds_eq_flatMap] at below
      exact step ((List.nodup_flatMap.1 below).1 entry held)

/-- Where every identifier is defined once, no element is both a node and a level, and none is
listed twice. -/
theorem elements_nodup {dag : Dag}
    (keyed : ∀ entry ∈ dag.children.entries, entry.1 = entry.2.id) (distinct : dag.ids.Nodup) :
    dag.elements.Nodup := by
  have children : dag.children.keys.Sublist (nestedIds dag.children.entries) := by
    rw [OrderedMap.keys, keys_of_keyed keyed]
    generalize dag.children.entries = entries
    induction entries with
    | nil => exact .slnil
    | cons entry rest step =>
        rw [List.map_cons, nestedIds, ids_eq, List.cons_append]
        exact .cons_cons _ (step.trans (List.sublist_append_right _ _))
  have nodes : dag.nodes.keys.Sublist (dag.nodes.keys ++ dag.edges.keys) :=
    List.sublist_append_left _ _
  exact (innerIds_nodup distinct).sublist (nodes.append children)

/-- Where a graph has no identifier in common with a level, merging appends what it holds. -/
theorem entries_merge {dag other : Dag} (sound : dag.Sound) (sound' : other.Sound)
    (distinct : other.ids.Nodup) (apart : ∀ id ∈ dag.ids, id ∉ other.ids) :
    (dag.merge other).nodes.entries = dag.nodes.entries ++ other.nodes.entries ∧
      (dag.merge other).edges.entries = dag.edges.entries ++ other.edges.entries ∧
      (dag.merge other).children.entries = dag.children.entries ++
        other.children.values.map fun child => (child.id, child.withParent dag.id) := by
  have inner {id : Id} (new : id ∈ other.innerIds) (old : id ∈ dag.innerIds) : False :=
    apart id (ids_eq dag ▸ List.mem_cons_of_mem _ old) (ids_eq other ▸ List.mem_cons_of_mem _ new)
  have own := (List.nodup_append.1 (innerIds_nodup distinct)).1
  refine ⟨?_, ?_, ?_⟩
  · rw [nodes_merge]
    exact OrderedMap.entries_insertAll_of_absent (List.nodup_append.1 own).1 fun id new old =>
      inner (List.mem_append_left _ (List.mem_append_left _ new))
        (List.mem_append_left _ (List.mem_append_left _ old))
  · rw [edges_merge]
    exact OrderedMap.entries_insertAll_of_absent (List.nodup_append.1 own).2.1 fun id new old =>
      inner (List.mem_append_left _ (List.mem_append_right _ new))
        (List.mem_append_left _ (List.mem_append_right _ old))
  · rw [children_merge]
    refine OrderedMap.entries_insertAll_of_absent ?_ ?_
    · rw [keys_moved sound'.children_keyed]
      exact (List.nodup_append.1 (elements_nodup sound'.children_keyed distinct)).2.1
    · rw [keys_moved sound'.children_keyed]
      exact fun id new old =>
        inner (elements_subset sound'.children_keyed (mem_elements.2 (.inr new)))
          (elements_subset sound.children_keyed (mem_elements.2 (.inr old)))

/-- A graph that has no identifier in common with a level brings all it defines below itself when
it is merged into that level. -/
theorem ids_merge_perm {dag other : Dag} (sound : dag.Sound) (sound' : other.Sound)
    (distinct : other.ids.Nodup) (apart : ∀ id ∈ dag.ids, id ∉ other.ids) :
    (dag.merge other).ids.Perm (dag.ids ++ other.innerIds) := by
  obtain ⟨nodes, edges, children⟩ := entries_merge sound sound' distinct apart
  have nested : nestedIds (dag.merge other).children.entries =
      nestedIds dag.children.entries ++ nestedIds other.children.entries := by
    simp only [children, nestedIds_eq_flatMap, List.flatMap_append, List.flatMap_map,
      OrderedMap.values, ids_withParent]
  rw [List.perm_iff_count]
  intro id
  rw [ids_eq, ids_eq, id_merge]
  simp only [innerIds, nested, OrderedMap.keys, nodes, edges, List.map_append, List.count_cons,
    List.count_append]
  omega

/-! ### Graphs made in one stretch of work -/

/-- A sound graph whose identifiers were all handed out in one stretch of work, each of them for one
thing. -/
structure Made (start stop : IdSupply) (dag : Dag) : Prop where
  sound : dag.SoundThroughout
  distinct : dag.ids.Nodup
  between : ∀ id ∈ dag.ids, IdSupply.Between start stop id

namespace Made

variable {start middle stop : IdSupply} {dag inner : Dag}

theorem forward (made : dag.Made start stop) : start.next ≤ stop.next := by
  obtain ⟨serial, _, low, high⟩ := made.between _ dag.id_mem_ids
  exact Nat.le_of_lt (Nat.lt_of_le_of_lt low high)

theorem widen (made : dag.Made start stop) {start' stop' : IdSupply}
    (earlier : start'.next ≤ start.next) (later : stop.next ≤ stop'.next) :
    dag.Made start' stop' :=
  ⟨made.sound, made.distinct, fun id held => (made.between id held).widen earlier later⟩

theorem extend (made : dag.Made start middle) (later : middle.next ≤ stop.next) :
    dag.Made start stop :=
  made.widen (Nat.le_refl _) later

/-- What is handed out next is not in the graph yet. -/
theorem not_mem_of_between (made : dag.Made start middle) {id : Id}
    (new : IdSupply.Between middle stop id) : id ∉ dag.ids := fun held =>
  (made.between id held).apart new

/-- Graphs made one after the other have no identifier in common. -/
theorem apart (made : dag.Made start middle) (made' : inner.Made middle stop) :
    ∀ id ∈ dag.ids, id ∉ inner.ids := fun id old new =>
  made.not_mem_of_between (made'.between id new) old

theorem elements_subset (made : dag.Made start stop) : dag.elements ⊆ dag.ids := by
  intro id held
  rw [ids_eq]
  exact List.mem_cons_of_mem _ (Dag.elements_subset made.sound.root.children_keyed held)

theorem empty (supply : IdSupply) (name : String) :
    (Dag.empty supply.take.1 name).Made supply supply.take.2 where
  sound := .empty _ _
  distinct := List.nodup_singleton _
  between := fun _ held => List.mem_singleton.1 held ▸ supply.between_take

/-- A change that keeps what the graph defines keeps it made. -/
private theorem of_perm {changed : Dag} (sound : changed.SoundThroughout) (new : List Id)
    (old : dag.Made start middle) (brought : changed.ids.Perm (dag.ids ++ new))
    (distinct : new.Nodup) (between : ∀ id ∈ new, IdSupply.Between middle stop id)
    (later : middle.next ≤ stop.next) : changed.Made start stop where
  sound := sound
  distinct := by
    rw [brought.nodup_iff, List.nodup_append]
    refine ⟨old.distinct, distinct, ?_⟩
    intro id held id' held' same
    exact (old.between id held).ne (between id' held') same
  between := by
    intro id held
    rcases List.mem_append.1 (brought.mem_iff.1 held) with before | now
    · exact (old.between id before).widen (Nat.le_refl _) later
    · exact (between id now).widen old.forward (Nat.le_refl _)

theorem congr {changed : Dag} (made : dag.Made start stop) (sound : changed.SoundThroughout)
    (ids : changed.ids = dag.ids) : changed.Made start stop :=
  ⟨sound, ids ▸ made.distinct, ids ▸ made.between⟩

theorem addNode (made : dag.Made start stop) (name : String) (style : Style) :
    (dag.addNode ⟨stop.take.1, name, style⟩).Made start stop.take.2 := by
  have absent : stop.take.1 ∉ dag.nodes.keys := fun held =>
    made.not_mem_of_between stop.between_take (made.elements_subset (mem_elements.2 (.inl held)))
  refine of_perm (made.sound.addNode _) [stop.take.1] made ?_ (List.nodup_singleton _)
    (fun _ held => List.mem_singleton.1 held ▸ stop.between_take) stop.next_le_take
  exact (ids_addNode_perm absent).trans (List.perm_append_singleton _ _).symm

theorem insertEdge (made : dag.Made start stop) (edge : Edge) (new : edge.id = stop.take.1)
    (source : edge.source ∈ dag.elements) (target : edge.target ∈ dag.elements)
    (noWayOut : ∀ other ∈ dag.edges.values, other.source ≠ edge.target)
    (apart : edge.source ≠ edge.target) :
    Made start stop.take.2 { dag with edges := dag.edges.insert edge.id edge } := by
  have between : IdSupply.Between stop stop.take.2 edge.id := new ▸ stop.between_take
  have absent : edge.id ∉ dag.edges.keys := fun held => made.not_mem_of_between between (by
    rw [ids_eq, innerIds]
    exact List.mem_cons_of_mem _ (List.mem_append_left _ (List.mem_append_right _ held)))
  refine of_perm (made.sound.insertEdge source target noWayOut apart) [edge.id] made ?_
    (List.nodup_singleton _) (fun _ held => List.mem_singleton.1 held ▸ between) stop.next_le_take
  exact (ids_insertEdge_perm absent).trans (List.perm_append_singleton _ _).symm

theorem attach (made : dag.Made start middle) (made' : inner.Made middle stop) :
    (dag.attach inner).Made start stop := by
  have absent : inner.id ∉ dag.children.keys := fun held =>
    made.apart made' _ (made.elements_subset (mem_elements.2 (.inr held))) inner.id_mem_ids
  exact of_perm (made.sound.attach made'.sound) inner.ids made (ids_attach_perm absent) made'.distinct
    made'.between made'.forward

theorem merge (made : dag.Made start middle) (made' : inner.Made middle stop) :
    (dag.merge inner).Made start stop := by
  have apart := made.apart made'
  have below : ∀ id ∈ inner.innerIds, id ∈ inner.ids := fun id held => by
    rw [ids_eq]
    exact List.mem_cons_of_mem _ held
  refine of_perm (made.sound.merge made'.sound ?_) inner.innerIds made
    (ids_merge_perm made.sound.root made'.sound.root made'.distinct apart)
    (innerIds_nodup made'.distinct) (fun id held => made'.between id (below id held)) made'.forward
  exact fun id old new => apart id (made.elements_subset old) (made'.elements_subset new)

theorem reidentify (made : dag.Made start stop) (name : String) :
    (dag.reidentify stop.take.1 name).Made start stop.take.2 := by
  have below : ∀ id ∈ dag.innerIds, id ∈ dag.ids := fun id held => by
    rw [ids_eq]
    exact List.mem_cons_of_mem _ held
  refine ⟨made.sound.reidentify _ name, ?_, ?_⟩
  · rw [ids_reidentify, List.nodup_cons]
    exact ⟨fun held => made.not_mem_of_between stop.between_take (below _ held),
      innerIds_nodup made.distinct⟩
  · intro id held
    rw [ids_reidentify] at held
    rcases List.mem_cons.1 held with rfl | old
    · exact stop.between_take.widen made.forward (Nat.le_refl _)
    · exact (made.between id (below id old)).widen (Nat.le_refl _) stop.next_le_take

end Made

end Dag

end RecipeGraph
