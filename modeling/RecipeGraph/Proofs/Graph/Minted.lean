/-
# Where the identifiers of a graph come from

No operation on a graph invents identifiers: what a changed graph defines was defined before, or was
handed to the operation. The one operation that takes identifiers of its own, copying, defines
nothing but these. None of this needs the graphs to be sound.
-/

import RecipeGraph.Dag.FreshCopy
import RecipeGraph.Proofs.Graph.Identity

namespace RecipeGraph.Dag

variable {dag other : Dag} {id : Id}

theorem mem_ids_iff : id ∈ dag.ids ↔ id = dag.id ∨ id ∈ dag.nodes.keys ∨ id ∈ dag.edges.keys ∨
    ∃ child ∈ dag.children.values, id ∈ child.ids := by
  rw [ids_eq, innerIds, List.mem_cons, List.mem_append, List.mem_append, or_assoc, mem_nestedIds]
  rfl

theorem mem_ids_addNode {node : Node} (held : id ∈ (dag.addNode node).ids) :
    id = node.id ∨ id ∈ dag.ids := by
  rw [mem_ids_iff] at held ⊢
  rcases held with root | node' | edge | nested
  · exact .inr (.inl root)
  · exact (OrderedMap.mem_keys_insert.1 node').imp_right fun old => .inr (.inl old)
  · exact .inr (.inr (.inr (.inl edge)))
  · exact .inr (.inr (.inr (.inr nested)))

theorem mem_ids_insertEdge {key : Id} {edge : Edge}
    (held : id ∈ ids { dag with edges := dag.edges.insert key edge }) : id = key ∨ id ∈ dag.ids := by
  rw [mem_ids_iff] at held ⊢
  rcases held with root | node | edge' | nested
  · exact .inr (.inl root)
  · exact .inr (.inr (.inl node))
  · exact (OrderedMap.mem_keys_insert.1 edge').imp_right fun old => .inr (.inr (.inl old))
  · exact .inr (.inr (.inr (.inr nested)))

theorem mem_ids_attach {child : Dag} (held : id ∈ (dag.attach child).ids) :
    id ∈ dag.ids ∨ id ∈ child.ids := by
  rw [mem_ids_iff] at held
  rcases held with root | node | edge | ⟨nested, inside, held⟩
  · exact .inl (mem_ids_iff.2 (.inl root))
  · exact .inl (mem_ids_iff.2 (.inr (.inl node)))
  · exact .inl (mem_ids_iff.2 (.inr (.inr (.inl edge))))
  · rcases OrderedMap.mem_values_insert inside with rfl | old
    · exact .inr (child.ids_withParent dag.id ▸ held)
    · exact .inl (mem_ids_iff.2 (.inr (.inr (.inr ⟨nested, old, held⟩))))

theorem mem_ids_attachAll {added : List Dag} (held : id ∈ (dag.attachAll added).ids) :
    id ∈ dag.ids ∨ ∃ child ∈ added, id ∈ child.ids := by
  induction added generalizing dag with
  | nil => exact .inl held
  | cons child rest step =>
      rcases step held with before | ⟨later, inside, held⟩
      · exact (mem_ids_attach before).imp_right fun here => ⟨child, List.mem_cons_self, here⟩
      · exact .inr ⟨later, List.mem_cons_of_mem _ inside, held⟩

theorem mem_ids_reidentify {name : String} {new : Id} (held : id ∈ (dag.reidentify new name).ids) :
    id = new ∨ id ∈ dag.ids := by
  rw [ids_reidentify, List.mem_cons] at held
  rw [ids_eq]
  exact held.imp_right (List.mem_cons_of_mem _)

theorem mem_ids_merge (held : id ∈ (dag.merge other).ids) : id ∈ dag.ids ∨ id ∈ other.ids := by
  rw [mem_ids_iff, id_merge, nodes_merge, edges_merge] at held
  rcases held with root | node | edge | ⟨nested, inside, held⟩
  · exact .inl (mem_ids_iff.2 (.inl root))
  · exact (OrderedMap.mem_keys_insertAll.1 node).symm.imp (fun old => mem_ids_iff.2 (.inr (.inl old)))
      fun new => mem_ids_iff.2 (.inr (.inl new))
  · exact (OrderedMap.mem_keys_insertAll.1 edge).symm.imp
      (fun old => mem_ids_iff.2 (.inr (.inr (.inl old))))
      fun new => mem_ids_iff.2 (.inr (.inr (.inl new)))
  · rcases mem_children_merge inside with ⟨child, nested, rfl⟩ | old
    · exact .inr (mem_ids_iff.2 (.inr (.inr (.inr ⟨child, nested, child.ids_withParent dag.id ▸ held⟩))))
    · exact .inl (mem_ids_iff.2 (.inr (.inr (.inr ⟨_, old, held⟩))))

/-! ### Copies -/

/-- Copied nodes have identifiers that were taken for them. -/
theorem copyNodes_minted (nodes : List Node) (supply : IdSupply) :
    supply.next ≤ (copyNodes nodes supply).2.next ∧
      ∀ copy ∈ (copyNodes nodes supply).1,
        IdSupply.Between supply (copyNodes nodes supply).2 copy.2.id := by
  induction nodes generalizing supply with
  | nil => exact ⟨Nat.le_refl _, nofun⟩
  | cons node rest step =>
      obtain ⟨forward, minted⟩ := step supply.take.2
      refine ⟨Nat.le_trans supply.next_le_take forward, List.forall_mem_cons.2 ⟨?_, ?_⟩⟩
      · exact supply.between_take.widen (Nat.le_refl _) forward
      · exact fun copy held => (minted copy held).widen supply.next_le_take (Nat.le_refl _)

theorem copyEdges_minted (moved : Renaming) (edges : List Edge) (supply : IdSupply) :
    supply.next ≤ (copyEdges moved edges supply).2.next ∧
      ∀ copy ∈ (copyEdges moved edges supply).1,
        IdSupply.Between supply (copyEdges moved edges supply).2 copy.id := by
  induction edges generalizing supply with
  | nil => exact ⟨Nat.le_refl _, nofun⟩
  | cons edge rest step =>
      obtain ⟨forward, minted⟩ := step supply.take.2
      refine ⟨Nat.le_trans supply.next_le_take forward, List.forall_mem_cons.2 ⟨?_, ?_⟩⟩
      · exact supply.between_take.widen (Nat.le_refl _) forward
      · exact fun copy held => (minted copy held).widen supply.next_le_take (Nat.le_refl _)

theorem mem_keys_nodesById {nodes : List Node} {id : Id} :
    id ∈ (nodesById nodes).keys ↔ ∃ node ∈ nodes, node.id = id :=
  OrderedMap.mem_keys_ofList

theorem mem_keys_edgesById {edges : List Edge} {id : Id} :
    id ∈ (edgesById edges).keys ↔ ∃ edge ∈ edges, edge.id = id :=
  OrderedMap.mem_keys_ofList

/-- A graph has identifiers that were handed out in one stretch of work. -/
def MintedIn (start stop : IdSupply) (dag : Dag) : Prop :=
  ∀ id ∈ dag.ids, IdSupply.Between start stop id

theorem MintedIn.widen {start stop start' stop' : IdSupply} (minted : dag.MintedIn start stop)
    (earlier : start'.next ≤ start.next) (later : stop.next ≤ stop'.next) :
    dag.MintedIn start' stop' := fun id held => (minted id held).widen earlier later

mutual

/-- A copy has no identifiers but those that were taken for it. -/
theorem freshCopy_minted : ∀ (dag : Dag) (supply : IdSupply),
    supply.next ≤ (dag.freshCopy supply).2.next ∧
      (dag.freshCopy supply).1.MintedIn supply (dag.freshCopy supply).2
  | ⟨_, name, _, _, nodes, edges, ⟨children⟩, _, _, _, _, _⟩, supply => by
      rw [freshCopy]
      obtain ⟨forward, nodesMinted⟩ := copyNodes_minted nodes.values supply.take.2
      obtain ⟨forward', childrenMinted⟩ := copyChildren_minted children
        (copyNodes nodes.values supply.take.2).2
      dsimp only
      generalize copyNodes nodes.values supply.take.2 = nodeCopies at *
      generalize copyChildren children nodeCopies.2 = childCopies at *
      generalize (OrderedMap.empty.insertAll (nodeCopies.1.map fun copy => (copy.1, copy.2.id))).insertAll
        (childCopies.1.map fun copy => (copy.1, copy.2.id)) = moved
      obtain ⟨forward'', edgesMinted⟩ := copyEdges_minted moved edges.values childCopies.2
      generalize copyEdges moved edges.values childCopies.2 = edgeCopies at *
      have taken := supply.next_le_take
      refine ⟨by omega, fun id held => ?_⟩
      rcases mem_ids_attachAll held with level | ⟨child, inside, held⟩
      · rcases mem_ids_iff.1 level with rfl | node | edge | ⟨child, inside, _⟩
        · exact supply.between_take.widen (Nat.le_refl _) (by omega)
        · obtain ⟨copy, inside, rfl⟩ := mem_keys_nodesById.1 node
          obtain ⟨copy, copied, rfl⟩ := List.mem_map.1 inside
          exact (nodesMinted copy copied).widen taken (by omega)
        · obtain ⟨copy, inside, rfl⟩ := mem_keys_edgesById.1 edge
          exact (edgesMinted copy inside).widen (by omega) (Nat.le_refl _)
        · nomatch inside
      · obtain ⟨copy, copied, rfl⟩ := List.mem_map.1 inside
        exact (childrenMinted copy copied id held).widen (by omega) forward''
termination_by structural dag => dag

theorem copyChildren_minted : ∀ (children : List (Id × Dag)) (supply : IdSupply),
    supply.next ≤ (copyChildren children supply).2.next ∧
      ∀ copy ∈ (copyChildren children supply).1,
        copy.2.MintedIn supply (copyChildren children supply).2
  | [], _ => ⟨Nat.le_refl _, nofun⟩
  | (_, child) :: rest, supply => by
      obtain ⟨forward, here⟩ := freshCopy_minted child supply
      obtain ⟨forward', later⟩ := copyChildren_minted rest (child.freshCopy supply).2
      refine ⟨Nat.le_trans forward forward', List.forall_mem_cons.2 ⟨?_, ?_⟩⟩
      · exact here.widen (Nat.le_refl _) forward'
      · exact fun copy held => (later copy held).widen forward (Nat.le_refl _)
termination_by structural children => children

end

end RecipeGraph.Dag
