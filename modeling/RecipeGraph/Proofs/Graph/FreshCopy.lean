/-
# Fresh copies are equal to the original up to identifiers

Copying a graph in which every identifier is defined once replaces each identifier by a new one.
Nodes, nested graphs and edges are copied one list after the other, and every list contributes its
part of the renaming; the parts fit together because neither the old identifiers of two parts meet
nor the new ones.
-/

import RecipeGraph.Dag.FreshCopy
import RecipeGraph.Proofs.Graph.Correspondence

namespace RecipeGraph

open Relator (BiUnique)

/-- A one-to-one relation that takes some of the old identifiers to identifiers handed out in one
stretch of work. -/
structure Renames (M : Id → Id → Prop) (olds : List Id) (start stop : IdSupply) : Prop where
  unique : BiUnique M
  from_old : ∀ old new, M old new → old ∈ olds
  to_new : ∀ old new, M old new → IdSupply.Between start stop new
  forward : start.next ≤ stop.next

namespace Renames

variable {M N : Id → Id → Prop} {olds olds' : List Id} {start middle stop : IdSupply}

theorem nothing (supply : IdSupply) : Renames (fun _ _ => False) [] supply supply :=
  ⟨⟨fun _ _ _ held => held.elim, fun _ _ _ held => held.elim⟩, fun _ _ held => held.elim,
    fun _ _ held => held.elim, Nat.le_refl _⟩

/-- One identifier is replaced by the next one of the supply. -/
theorem one (old : Id) (supply : IdSupply) :
    Renames (fun id new => id = old ∧ new = supply.take.1) [old] supply supply.take.2 where
  unique := ⟨fun _ _ _ one two => one.1.trans two.1.symm, fun _ _ _ one two =>
    one.2.trans two.2.symm⟩
  from_old := fun _ _ held => List.mem_singleton.2 held.1
  to_new := fun _ _ held => held.2 ▸ supply.between_take
  forward := supply.next_le_take

/-- Two stretches of work rename together what they rename apart. -/
theorem join (first : Renames M olds start middle) (second : Renames N olds' middle stop)
    (apart : ∀ id ∈ olds, id ∉ olds') :
    Renames (fun old new => M old new ∨ N old new) (olds ++ olds') start stop where
  unique := by
    constructor
    · rintro one two new (one_new | one_new) (two_new | two_new)
      · exact first.unique.1 one_new two_new
      · exact absurd (second.to_new _ _ two_new) (first.to_new _ _ one_new).apart
      · exact absurd (second.to_new _ _ one_new) (first.to_new _ _ two_new).apart
      · exact second.unique.1 one_new two_new
    · rintro old one two (old_one | old_one) (old_two | old_two)
      · exact first.unique.2 old_one old_two
      · exact absurd (second.from_old _ _ old_two) (apart _ (first.from_old _ _ old_one))
      · exact absurd (second.from_old _ _ old_one) (apart _ (first.from_old _ _ old_two))
      · exact second.unique.2 old_one old_two
  from_old := fun old new held => List.mem_append.2
    (held.imp (first.from_old old new) (second.from_old old new))
  to_new := fun old new held => held.elim
    (fun held => (first.to_new old new held).widen (Nat.le_refl _) second.forward)
    fun held => (second.to_new old new held).widen first.forward (Nat.le_refl _)
  forward := Nat.le_trans first.forward second.forward

theorem reorder (renames : Renames M olds start stop) (same : ∀ id ∈ olds, id ∈ olds') :
    Renames M olds' start stop :=
  ⟨renames.unique, fun _ _ held => same _ (renames.from_old _ _ held), renames.to_new,
    renames.forward⟩

end Renames

namespace Dag

/-- Copied nodes are the same up to their identifiers, and each stands beside the old one. -/
theorem copyNodes_renames (nodes : List Node) (supply : IdSupply)
    (distinct : (nodes.map Node.id).Nodup) :
    ∃ M, Renames M (nodes.map Node.id) supply (copyNodes nodes supply).2 ∧
      List.Forall₂ (fun node copy => copy.1 = node.id ∧ node.Corresponds M copy.2) nodes
        (copyNodes nodes supply).1 := by
  induction nodes generalizing supply with
  | nil => exact ⟨_, .nothing supply, .nil⟩
  | cons node rest step =>
      obtain ⟨absent, distinct⟩ := List.nodup_cons.1 distinct
      obtain ⟨M, renames, copied⟩ := step supply.take.2 distinct
      refine ⟨_, (Renames.one node.id supply).join renames ?_, .cons ⟨rfl, ?_⟩ ?_⟩
      · exact fun id held => List.mem_singleton.1 held ▸ absent
      · exact ⟨.inl ⟨rfl, rfl⟩, rfl, rfl⟩
      · exact copied.imp fun _ _ both => ⟨both.1, .inr both.2.id, both.2.name, both.2.style⟩

/-- Copied edges are the same up to their identifiers, once the ends have been moved. -/
theorem copyEdges_renames (moved : Renaming) (edges : List Edge) (supply : IdSupply)
    (distinct : (edges.map Edge.id).Nodup) :
    ∃ M, Renames M (edges.map Edge.id) supply (copyEdges moved edges supply).2 ∧
      List.Forall₂ (fun edge copy => M edge.id copy.id ∧ copy = { edge with
        id := copy.id
        source := moved.apply edge.source
        target := moved.apply edge.target }) edges (copyEdges moved edges supply).1 := by
  induction edges generalizing supply with
  | nil => exact ⟨_, .nothing supply, .nil⟩
  | cons edge rest step =>
      obtain ⟨absent, distinct⟩ := List.nodup_cons.1 distinct
      obtain ⟨M, renames, copied⟩ := step supply.take.2 distinct
      refine ⟨_, (Renames.one edge.id supply).join renames ?_, .cons ⟨.inl ⟨rfl, rfl⟩, rfl⟩ ?_⟩
      · exact fun id held => List.mem_singleton.1 held ▸ absent
      · exact copied.imp fun _ _ both => ⟨.inr both.1, both.2⟩

/-- What copying a graph has to achieve. -/
def CopiesWell (dag : Dag) : Prop :=
  ∀ supply, ∃ M, Renames M dag.ids supply (dag.freshCopy supply).2 ∧
    Corresponds M dag (dag.freshCopy supply).1

theorem copyChildren_renames (children : List (Id × Dag)) (supply : IdSupply)
    (distinct : (nestedIds children).Nodup) (copied : ∀ entry ∈ children, entry.2.CopiesWell) :
    ∃ M, Renames M (nestedIds children) supply (copyChildren children supply).2 ∧
      List.Forall₂ (fun entry copy => copy.1 = entry.2.id ∧ Corresponds M entry.2 copy.2) children
        (copyChildren children supply).1 := by
  induction children generalizing supply with
  | nil => exact ⟨_, .nothing supply, .nil⟩
  | cons entry rest step =>
      obtain ⟨_, distinct, apart⟩ := List.nodup_append.1 distinct
      obtain ⟨M, renames, here⟩ := copied entry List.mem_cons_self supply
      obtain ⟨N, renames', later⟩ := step (entry.2.freshCopy supply).2 distinct
        fun other held => copied other (List.mem_cons_of_mem _ held)
      refine ⟨_, renames.join renames' fun id old new => apart id old id new rfl,
        .cons ⟨rfl, here.mono fun _ _ => .inl⟩ ?_⟩
      exact later.imp fun _ _ both => ⟨both.1, both.2.mono fun _ _ => .inr⟩

/-- Which new identifiers the elements of a level get from the copies of its nodes and of the
levels directly in it. -/
def movedElements (nodes : List (Id × Node)) (children : List (Id × Dag)) : Renaming :=
  (OrderedMap.empty.insertAll (nodes.map fun copy => (copy.1, copy.2.id))).insertAll
    (children.map fun copy => (copy.1, copy.2.id))

/-- An element is moved to the identifier of its copy. -/
theorem movedElements_apply {nodes : List (Id × Node)} {children : List (Id × Dag)} {id : Id}
    (held : id ∈ nodes.map Prod.fst ∨ id ∈ children.map Prod.fst) :
    (∃ copy ∈ nodes, copy.1 = id ∧ (movedElements nodes children).apply id = copy.2.id) ∨
      ∃ copy ∈ children, copy.1 = id ∧ (movedElements nodes children).apply id = copy.2.id := by
  have present : id ∈ (movedElements nodes children).keys := by
    rw [movedElements, OrderedMap.mem_keys_insertAll, OrderedMap.mem_keys_insertAll]
    simpa [List.map_map, Function.comp_def, or_comm] using held
  obtain ⟨new, found⟩ := OrderedMap.exists_get?_of_mem_keys present
  have applied : (movedElements nodes children).apply id = new := by
    rw [Renaming.apply, found]
    rfl
  rcases OrderedMap.mem_entries_insertAll (OrderedMap.mem_of_get? found) with nested | before
  · obtain ⟨copy, inside, same⟩ := List.mem_map.1 nested
    obtain ⟨rfl, rfl⟩ := Prod.mk.inj same
    exact .inr ⟨copy, inside, rfl, applied⟩
  · rcases OrderedMap.mem_entries_insertAll before with node | nothing
    · obtain ⟨copy, inside, same⟩ := List.mem_map.1 node
      obtain ⟨rfl, rfl⟩ := Prod.mk.inj same
      exact .inl ⟨copy, inside, rfl, applied⟩
    · nomatch nothing

/-- The level that is put together from copies of the parts of another one. -/
def assembled (dag : Dag) (own : Id) (nodes : List (Id × Node)) (children : List (Id × Dag))
    (edges : List Edge) : Dag :=
  { dag with
    id := own
    nodes := nodesById (nodes.map Prod.snd)
    edges := edgesById edges
    children := .ofList
      ((children.map fun copy => copy.2.withParent own).map fun copy => (copy.id, copy))
    variableIds := dag.variableIds.mapValues (movedElements nodes children).apply }

/-- A copied level is put together from the copies of its parts. -/
theorem freshCopy_eq (dag : Dag) (supply : IdSupply) :
    dag.freshCopy supply =
      let own := supply.take
      let nodes := copyNodes dag.nodes.values own.2
      let children := copyChildren dag.children.entries nodes.2
      let moved := movedElements nodes.1 children.1
      let edges := copyEdges moved dag.edges.values children.2
      (dag.assembled own.1 nodes.1 children.1 edges.1, edges.2) := by
  obtain ⟨_, _, _, _, _, _, ⟨children⟩, _, _, _, _, _⟩ := dag
  rw [freshCopy]
  simp only [assembled, attachAll_eq, List.map_map]
  rfl

/-- Values that are stored under identifiers of their own have these for keys. -/
theorem map_key_values {ν : Type} {map : OrderedMap Id ν} {key : ν → Id}
    (keyed : ∀ entry ∈ map.entries, entry.1 = key entry.2) : map.values.map key = map.keys := by
  rw [OrderedMap.values, List.map_map]
  exact (List.map_congr_left keyed).symm

private theorem exists_copy {α β : Type} {copied : α → β → Prop} {items : List α} {copies : List β}
    (all : List.Forall₂ copied items copies) {item : α} (held : item ∈ items) :
    ∃ copy ∈ copies, copied item copy :=
  OrderedMap.exists_related_of_mem all.flip held

section Stored

variable {M : Id → Id → Prop}

/-- Copies that are stored under their own new identifiers correspond to the old map, entry by
entry. -/
private theorem stored {ν : Type} {valued : ν → ν → Prop} {map : OrderedMap Id ν} {key : ν → Id}
    {copies : List ν} (unique : BiUnique M)
    (keyed : ∀ entry ∈ map.entries, entry.1 = key entry.2) (distinct : map.keys.Nodup)
    (copied : List.Forall₂ valued map.values copies)
    (keys : ∀ value copy, valued value copy → M (key value) (key copy)) :
    map.Corresponds M valued (.ofList (copies.map fun copy => (key copy, copy))) := by
  have entries : List.Forall₂ (fun entry copy => M entry.1 (key copy) ∧ valued entry.2 copy)
      map.entries copies := by
    rw [OrderedMap.values, List.forall₂_map_left_iff] at copied
    have held := (List.forall₂_and_left _ _).2 ⟨keyed, copied⟩
    refine held.imp ?_
    rintro entry copy ⟨same, both⟩
    exact ⟨same ▸ keys _ _ both, both⟩
  have renamed : List.Forall₂ M map.keys (copies.map key) := by
    rw [OrderedMap.keys, List.forall₂_map_left_iff, List.forall₂_map_right_iff]
    exact entries.imp fun _ _ both => both.1
  have fresh : (copies.map key).Nodup := (List.rel_nodup unique renamed).1 distinct
  show List.Forall₂ _ map.entries _
  rw [OrderedMap.entries_ofList_of_nodup fresh, List.forall₂_map_right_iff]
  exact entries

/-- An element is moved to the identifier of a copy that corresponds to it. -/
private theorem moved_related {dag : Dag} (root : dag.Sound) {nodes : List (Id × Node)}
    {children : List (Id × Dag)}
    (nodes_copied : List.Forall₂ (fun node copy => copy.1 = node.id ∧ node.Corresponds M copy.2)
      dag.nodes.values nodes)
    (children_copied : List.Forall₂ (fun entry copy => copy.1 = entry.2.id ∧
      Corresponds M entry.2 copy.2) dag.children.entries children) {id : Id}
    (held : id ∈ dag.elements) : M id ((movedElements nodes children).apply id) := by
  have copied : id ∈ nodes.map Prod.fst ∨ id ∈ children.map Prod.fst := by
    refine (mem_elements.1 held).imp (fun node => ?_) fun nested => ?_
    · rw [← map_key_values root.nodes_keyed] at node
      obtain ⟨old, inside, rfl⟩ := List.mem_map.1 node
      obtain ⟨copy, found, same, _⟩ := exists_copy nodes_copied inside
      exact List.mem_map.2 ⟨copy, found, same⟩
    · rw [OrderedMap.keys, keys_of_keyed root.children_keyed] at nested
      obtain ⟨old, inside, rfl⟩ := List.mem_map.1 nested
      obtain ⟨copy, found, same, _⟩ := exists_copy children_copied inside
      exact List.mem_map.2 ⟨copy, found, same⟩
  rcases movedElements_apply copied with ⟨copy, inside, rfl, applied⟩ | ⟨copy, inside, rfl, applied⟩
  · obtain ⟨old, _, same, both⟩ := OrderedMap.exists_related_of_mem nodes_copied inside
    exact applied ▸ same ▸ both.id
  · obtain ⟨old, _, same, both⟩ := OrderedMap.exists_related_of_mem children_copied inside
    exact applied ▸ same ▸ both.level.id

/-- A level corresponds to the one put together from copies of its parts, provided that one
one-to-one relation takes all of them to their copies. -/
private theorem corresponds_copied {dag : Dag} (unique : BiUnique M) (root : dag.Sound)
    (distinct : dag.ids.Nodup) {own : Id} {nodes : List (Id × Node)} {children : List (Id × Dag)}
    {edges : List Edge} (here : M dag.id own)
    (nodes_copied : List.Forall₂ (fun node copy => copy.1 = node.id ∧ node.Corresponds M copy.2)
      dag.nodes.values nodes)
    (children_copied : List.Forall₂ (fun entry copy => copy.1 = entry.2.id ∧
      Corresponds M entry.2 copy.2) dag.children.entries children)
    (edges_copied : List.Forall₂ (fun edge copy => M edge.id copy.id ∧ copy = { edge with
      id := copy.id
      source := (movedElements nodes children).apply edge.source
      target := (movedElements nodes children).apply edge.target }) dag.edges.values edges) :
    Corresponds M dag (dag.assembled own nodes children edges) := by
  obtain ⟨flat, _⟩ := List.nodup_append.1 (innerIds_nodup distinct)
  obtain ⟨nodes_once, edges_once, _⟩ := List.nodup_append.1 flat
  have children_once := (List.nodup_append.1 (elements_nodup root.children_keyed distinct)).2.1
  have moved {id : Id} (held : id ∈ dag.elements) :=
    moved_related root nodes_copied children_copied held
  refine corresponds_iff.2 ⟨⟨here, rfl, rfl, ?_, ?_, rfl, rfl, ?_, rfl, rfl⟩, ?_⟩
  · refine stored unique root.nodes_keyed nodes_once ?_ fun _ _ both => both.id
    rw [List.forall₂_map_right_iff]
    exact nodes_copied.imp fun _ _ both => both.2
  · refine stored unique root.edges_keyed edges_once ?_ fun _ _ both => both.id
    have held := (List.forall₂_and_left _ _).2 ⟨root.edges_between, edges_copied⟩
    refine held.imp ?_
    rintro edge copy ⟨between, same, changed⟩
    rw [changed]
    exact ⟨same, rfl, moved between.1, moved between.2, rfl⟩
  · show List.Forall₂ _ dag.variableIds.entries (dag.variableIds.entries.map _)
    rw [List.forall₂_map_right_iff, List.forall₂_same]
    exact fun entry held => ⟨rfl, moved (root.variables_bound _ (List.mem_map_of_mem held))⟩
  · refine stored unique root.children_keyed children_once ?_ fun _ _ both => both.inside.level.id
    rw [OrderedMap.values, List.forall₂_map_left_iff, List.forall₂_map_right_iff]
    have placed : ∀ entry ∈ dag.children.entries, entry.2.parent = some dag.id :=
      fun entry held => root.children_placed entry.2 (List.mem_map_of_mem held)
    have held := (List.forall₂_and_left _ _).2 ⟨placed, children_copied⟩
    refine held.imp ?_
    rintro entry copy ⟨parent, _, both⟩
    refine ⟨?_, Corresponds.withParent_right_iff.2 both⟩
    rw [parent]
    exact .some here

end Stored

/-- A copy of a sound graph in which every identifier is defined once is the same graph under
identifiers that were handed out while it was copied. -/
theorem copiesWell {dag : Dag} (sound : dag.SoundThroughout) (distinct : dag.ids.Nodup) :
    dag.CopiesWell := by
  induction dag using Dag.rise with
  | step dag below =>
      intro supply
      have root := sound.root
      obtain ⟨own_apart, inner⟩ := List.nodup_cons.1 (ids_eq dag ▸ distinct)
      obtain ⟨flat, nested, flat_apart⟩ := List.nodup_append.1 inner
      obtain ⟨nodes_once, edges_once, nodes_apart⟩ := List.nodup_append.1 flat
      have node_ids := map_key_values root.nodes_keyed
      have edge_ids := map_key_values root.edges_keyed
      obtain ⟨N, nodes, node_copies⟩ :=
        copyNodes_renames dag.nodes.values supply.take.2 (node_ids.symm ▸ nodes_once)
      obtain ⟨C, children, child_copies⟩ := copyChildren_renames dag.children.entries
        (copyNodes dag.nodes.values supply.take.2).2 nested
        fun entry held => below entry.2 (List.mem_map_of_mem held)
          (sound.child (List.mem_map_of_mem held))
          ((List.nodup_flatMap.1 (nestedIds_eq_flatMap _ ▸ nested)).1 entry held)
      obtain ⟨E, edges, edge_copies⟩ := copyEdges_renames
        (movedElements (copyNodes dag.nodes.values supply.take.2).1
          (copyChildren dag.children.entries (copyNodes dag.nodes.values supply.take.2).2).1)
        dag.edges.values (copyChildren dag.children.entries
          (copyNodes dag.nodes.values supply.take.2).2).2 (edge_ids.symm ▸ edges_once)
      rw [node_ids] at nodes
      rw [edge_ids] at edges
      -- The parts are joined in the order in which the supply serves them.
      have all := (((Renames.one dag.id supply).join nodes ?_).join children ?_).join edges ?_
      · rw [freshCopy_eq]
        refine ⟨_, all.reorder ?_, corresponds_copied all.unique root distinct ?_ ?_ ?_ ?_⟩
        · rw [ids_eq, innerIds]
          intro id held
          simp only [List.mem_append, List.mem_cons, List.not_mem_nil, or_false] at held ⊢
          tauto
        · exact .inl (.inl (.inl ⟨rfl, rfl⟩))
        · exact node_copies.imp fun _ _ both => ⟨both.1, .inl (.inl (.inr both.2.id)), both.2.name,
            both.2.style⟩
        · exact child_copies.imp fun _ _ both => ⟨both.1, both.2.mono fun _ _ => (.inl <| .inr ·)⟩
        · exact edge_copies.imp fun _ _ both => ⟨.inr both.1, both.2⟩
      · intro id own node
        obtain rfl := List.mem_singleton.1 own
        exact own_apart (List.mem_append_left _ (List.mem_append_left _ node))
      · intro id old deeper
        rcases List.mem_append.1 old with own | node
        · obtain rfl := List.mem_singleton.1 own
          exact own_apart (List.mem_append_right _ deeper)
        · exact flat_apart id (List.mem_append_left _ node) id deeper rfl
      · intro id old edge
        rcases List.mem_append.1 old with old | deeper
        · rcases List.mem_append.1 old with own | node
          · obtain rfl := List.mem_singleton.1 own
            exact own_apart (List.mem_append_left _ (List.mem_append_right _ edge))
          · exact nodes_apart id node id edge rfl
        · exact flat_apart id (List.mem_append_right _ edge) id deeper rfl

/-- A copy is sound, and its identifiers are all new. -/
theorem freshCopy_made {dag : Dag} (sound : dag.SoundThroughout) (distinct : dag.ids.Nodup)
    (supply : IdSupply) : (dag.freshCopy supply).1.Made supply (dag.freshCopy supply).2 := by
  obtain ⟨M, renames, copied⟩ := copiesWell sound distinct supply
  refine ⟨copied.soundThroughout renames.unique sound, copied.ids_nodup renames.unique distinct, ?_⟩
  intro id held
  obtain ⟨old, _, same⟩ := OrderedMap.exists_related_of_mem copied.ids held
  exact renames.to_new old id same

end Dag

end RecipeGraph
