/-
# Counting on a level

How many edges lead into an element or out of it, and how many variables stand for it, is asked of
one element at a time. The answers add up: both ends of every edge and what every variable stands for
are elements, and no element is listed twice, so nothing is left out and nothing counted twice. Where
the edges run in no circle, there is an element that nothing flows into, and one that nothing flows
out of; they come first and last in any order of the elements.
-/

import Mathlib.Algebra.BigOperators.Group.Finset.Basic
import Mathlib.Algebra.GroupWithZero.Nat
import RecipeGraph.Dag.Inspect
import RecipeGraph.Proofs.Graph.Topology
import RecipeGraph.Proofs.Graph.Identity

namespace RecipeGraph

namespace OrderedMap

variable {κ ν : Type} [DecidableEq κ]

omit [DecidableEq κ] in
/-- Where values are stored under keys of their own, the keys can be read off the values. -/
theorem keys_eq_map_values {map : OrderedMap κ ν} {key : ν → κ}
    (keyed : ∀ entry ∈ map.entries, entry.1 = key entry.2) : map.keys = map.values.map key := by
  rw [values, List.map_map]
  exact List.map_congr_left keyed

/-- Where no key occurs twice, every entry is found under its key. -/
theorem Distinct.get?_of_mem {map : OrderedMap κ ν} (distinct : map.Distinct) {entry : κ × ν}
    (held : entry ∈ map.entries) : map.get? entry.1 = some entry.2 := by
  obtain ⟨value, found⟩ := exists_get?_of_mem_keys (List.mem_map_of_mem held)
  have same := List.inj_on_of_nodup_map distinct (mem_of_get? found) held rfl
  rw [found, ← same]

/-- Storing a number changes the sum by the difference to the number that was there. -/
theorem sum_values_insert (map : OrderedMap κ Nat) (key : κ) (value : Nat) :
    (map.insert key value).values.sum + (map.get? key).getD 0 = map.values.sum + value := by
  obtain ⟨entries⟩ := map
  simp only [insert, get?, values]
  induction entries with
  | nil => simp [write, lookup]
  | cons entry rest step =>
      obtain ⟨here, old⟩ := entry
      by_cases same : here = key
      · simp only [write, lookup, if_pos same, List.map_cons, List.sum_cons, Option.getD_some]
        omega
      · simp only [write, lookup, if_neg same, List.map_cons, List.sum_cons]
        omega

end OrderedMap

/-- Counting item by item in a list without repetitions that has them all counts each item once. -/
theorem sum_count {α : Type} [DecidableEq α] {all items : List α} (distinct : all.Nodup)
    (inside : ∀ item ∈ items, item ∈ all) :
    (all.map fun item => items.count item).sum = items.length := by
  have present : ∀ item ∈ (items : Multiset α), item ∈ all.toFinset := fun item held =>
    List.mem_toFinset.2 (inside item held)
  rw [← List.sum_toFinset _ distinct]
  simpa only [Multiset.coe_count, Multiset.coe_card] using Multiset.sum_count_eq_card present

namespace Dag

variable {dag : Dag}

/-! ### Edges -/

/-- Counting edges by one of their ends, element by element, counts every edge once. -/
theorem sum_degrees (end_ : Edge → Id) (distinct : dag.elements.Nodup)
    (inside : ∀ edge ∈ dag.edges.values, end_ edge ∈ dag.elements) :
    (dag.elements.map fun id => dag.edges.values.countP fun edge => end_ edge = id).sum =
      dag.edges.size := by
  have counted : ∀ id ∈ dag.elements, (dag.edges.values.countP fun edge => end_ edge = id) =
      (dag.edges.values.map end_).count id := by
    intro id _
    rw [List.count_eq_countP, List.countP_map]
    rfl
  rw [List.map_congr_left counted, sum_count distinct (List.forall_mem_map.2 inside),
    List.length_map]
  exact List.length_map _

/-- Nothing flows into what comes first in an order of the elements. -/
theorem OrdersElements.exists_inDegree_eq_zero {order : List Id} (orders : dag.OrdersElements order)
    (filled : dag.elements ≠ []) : ∃ id ∈ dag.elements, dag.inDegree id = 0 := by
  obtain ⟨some, held⟩ := List.exists_mem_of_ne_nil _ filled
  cases order with
  | nil => nomatch (orders.complete some).2 held
  | cons first rest =>
      refine ⟨first, (orders.complete first).1 List.mem_cons_self, List.countP_eq_zero.2 ?_⟩
      intro edge inside same
      have forward := orders.forward edge inside
      rw [of_decide_eq_true same, List.idxOf_cons_self] at forward
      exact Nat.not_lt_zero _ forward

/-- Nothing flows out of what comes last, since the edges lead to elements. -/
theorem OrdersElements.exists_outDegree_eq_zero {order : List Id} (orders : dag.OrdersElements order)
    (joined : ∀ edge ∈ dag.edges.values, edge.target ∈ dag.elements) (filled : dag.elements ≠ []) :
    ∃ id ∈ dag.elements, dag.outDegree id = 0 := by
  obtain ⟨some, held⟩ := List.exists_mem_of_ne_nil _ filled
  rcases List.eq_nil_or_concat order with rfl | ⟨before, last, rfl⟩
  · nomatch (orders.complete some).2 held
  · rw [List.concat_eq_append] at orders
    have new : last ∉ before := fun again =>
      (List.nodup_append.1 orders.distinct).2.2 _ again _ List.mem_cons_self rfl
    have inside : last ∈ before ++ [last] := List.mem_append_right _ List.mem_cons_self
    refine ⟨last, (orders.complete last).1 inside, List.countP_eq_zero.2 ?_⟩
    intro edge listed same
    have forward := orders.forward edge listed
    have bound := List.idxOf_lt_length_of_mem ((orders.complete edge.target).2 (joined edge listed))
    rw [of_decide_eq_true same, List.idxOf_append_of_notMem new, List.idxOf_cons_self] at forward
    rw [List.length_append, List.length_singleton] at bound
    omega

/-! ### Variables -/

/-- The variables that stand for an element. -/
def namesFor (dag : Dag) (id : Id) : List String :=
  dag.variableIds.keys.filter fun name => dag.element? (.single name) = some id

/-- One step of counting gives an element one more. -/
theorem get?_countOne (counts : OrderedMap Id Nat) (id other : Id) :
    (countOne counts id).get? other =
      if id = other then some ((counts.get? other).getD 0 + 1) else counts.get? other := by
  rw [countOne, OrderedMap.get?_insert]
  split
  · next same => rw [same]
  · rfl

/-- Counting on gives every element as many more as it comes up. -/
theorem get?_foldl_countOne (counts : OrderedMap Id Nat) (ids : List Id) (id : Id) :
    (ids.foldl countOne counts).get? id =
      if id ∈ ids then some ((counts.get? id).getD 0 + ids.count id) else counts.get? id := by
  induction ids generalizing counts with
  | nil => rfl
  | cons first rest step =>
      rw [List.foldl_cons, step, get?_countOne]
      by_cases same : first = id
      · rw [if_pos same, if_pos (List.mem_cons.2 (.inl same.symm)), same, List.count_cons_self]
        split
        · rw [Option.getD_some]
          exact congrArg some (by omega)
        · next absent => rw [List.count_eq_zero_of_not_mem absent]
      · have listed : id ∈ first :: rest ↔ id ∈ rest :=
          List.mem_cons.trans (or_iff_right fun equal => same equal.symm)
        rw [if_neg same, List.count_cons_of_ne same]
        exact if_congr listed.symm rfl rfl

theorem sum_values_foldl_countOne (counts : OrderedMap Id Nat) (ids : List Id) :
    (ids.foldl countOne counts).values.sum = counts.values.sum + ids.length := by
  induction ids generalizing counts with
  | nil => rfl
  | cons id rest step =>
      have added := OrderedMap.sum_values_insert counts id ((counts.get? id).getD 0 + 1)
      rw [List.foldl_cons, step, List.length_cons, countOne]
      omega

/-- The count of an element is the number of variables that stand for it. -/
theorem length_namesFor (distinct : dag.variableIds.Distinct) (id : Id) :
    (dag.namesFor id).length = dag.variableIds.values.count id := by
  have found : ∀ entry ∈ dag.variableIds.entries,
      decide (dag.element? (.single entry.1) = some id) = true ↔ (entry.2 == id) = true := by
    intro entry held
    have got : dag.element? (.single entry.1) = some entry.2 := distinct.get?_of_mem held
    rw [decide_eq_true_iff, beq_iff_eq, got, Option.some_inj]
  calc (dag.namesFor id).length
      = dag.variableIds.entries.countP fun entry => dag.element? (.single entry.1) = some id := by
        rw [namesFor, ← List.countP_eq_length_filter, OrderedMap.keys, List.countP_map]
        rfl
    _ = dag.variableIds.entries.countP fun entry => entry.2 == id := List.countP_congr found
    _ = dag.variableIds.values.count id := by
        rw [OrderedMap.values, List.count_eq_countP, List.countP_map]
        rfl

/-- An element has a count if a variable stands for it, and the count is the number of variables
that do. -/
theorem get?_variableCounts (distinct : dag.variableIds.Distinct) (id : Id) :
    dag.variableCounts.get? id =
      if dag.namesFor id = [] then none else some (dag.namesFor id).length := by
  have unnamed : dag.namesFor id = [] ↔ id ∉ dag.variableIds.values := by
    rw [← List.length_eq_zero_iff, length_namesFor distinct, List.count_eq_zero]
  rw [variableCounts, get?_foldl_countOne, length_namesFor distinct, OrderedMap.get?_empty,
    Option.getD_none, Nat.zero_add]
  split
  · next bound => rw [if_neg fun none => unnamed.1 none bound]
  · next unbound => rw [if_pos (unnamed.2 unbound)]

/-- Only what a variable stands for has a count. -/
theorem mem_keys_variableCounts {id : Id} (counted : id ∈ dag.variableCounts.keys) :
    id ∈ dag.variableIds.values := by
  obtain ⟨count, found⟩ := OrderedMap.exists_get?_of_mem_keys counted
  rw [variableCounts, get?_foldl_countOne] at found
  by_contra unbound
  rw [if_neg unbound, OrderedMap.get?_empty] at found
  cases found

/-! ### Levels -/

/-- What is counted on a level adds up. -/
structure AddsUp (level : Dag) : Prop where
  /-- The elements are the nodes and the levels nested here. -/
  listed : level.elements =
    level.nodes.values.map Node.id ++ level.children.values.map Dag.id
  once : level.elements.Nodup
  arriving : (level.elements.map level.inDegree).sum = level.edges.size
  leaving : (level.elements.map level.outDegree).sum = level.edges.size
  /-- The map of variables holds every name once. -/
  distinct : level.variableIds.Distinct
  bound : level.variableCounts.values.sum = level.variableIds.size
  counted : ∀ id, level.variableCounts.get? id =
    if level.namesFor id = [] then none else some (level.namesFor id).length
  inside : ∀ id ∈ level.variableCounts.keys, id ∈ level.elements
  begins : level.elements ≠ [] → ∃ id ∈ level.elements, level.inDegree id = 0
  ends : level.elements ≠ [] → ∃ id ∈ level.elements, level.outDegree id = 0
  /-- Where nothing is nested, the graph begins and ends with nodes. -/
  nodes : level.nodes.values ≠ [] → level.children.values = [] →
    level.sources ≠ [] ∧ level.sinks ≠ []

/-- The elements of a sound level, read off what is stored there. -/
theorem Sound.elements_eq {level : Dag} (sound : level.Sound) :
    level.elements = level.nodes.values.map Node.id ++ level.children.values.map Dag.id := by
  rw [elements, OrderedMap.keys_eq_map_values sound.nodes_keyed,
    OrderedMap.keys_eq_map_values sound.children_keyed]

/-- On a sound level whose identifiers are used once, what is counted adds up. -/
theorem Sound.addsUp {level : Dag} (sound : level.Sound) (unique : level.ids.Nodup)
    (distinct : level.variableIds.Distinct) : level.AddsUp := by
  have once := elements_nodup sound.children_keyed unique
  have targets : ∀ edge ∈ level.edges.values, edge.target ∈ level.elements := fun edge held =>
    (sound.edges_between edge held).2
  have sources : ∀ edge ∈ level.edges.values, edge.source ∈ level.elements := fun edge held =>
    (sound.edges_between edge held).1
  obtain ⟨order, _, orders⟩ := topologicalOrder_ok sound
  have begins := orders.exists_inDegree_eq_zero
  have ends := orders.exists_outDegree_eq_zero targets
  refine ⟨sound.elements_eq, once, sum_degrees Edge.target once targets,
    sum_degrees Edge.source once sources, distinct, ?_, get?_variableCounts distinct,
    fun id counted => sound.variables_bound id (mem_keys_variableCounts counted), begins, ends, ?_⟩
  · rw [variableCounts, sum_values_foldl_countOne]
    exact (Nat.zero_add _).trans (List.length_map _)
  · intro filled flat
    have alone : level.elements = level.nodes.values.map Node.id := by
      rw [sound.elements_eq, flat, List.map_nil, List.append_nil]
    have some : level.elements ≠ [] := alone ▸ fun none => filled (List.map_eq_nil_iff.1 none)
    obtain ⟨first, held, nothingIn⟩ := begins some
    obtain ⟨last, held', nothingOut⟩ := ends some
    obtain ⟨node, inside, rfl⟩ := List.mem_map.1 (alone ▸ held)
    obtain ⟨node', inside', rfl⟩ := List.mem_map.1 (alone ▸ held')
    exact ⟨List.ne_nil_of_mem (List.mem_filter.2 ⟨inside, beq_iff_eq.2 nothingIn⟩),
      List.ne_nil_of_mem (List.mem_filter.2 ⟨inside', beq_iff_eq.2 nothingOut⟩)⟩

end Dag

end RecipeGraph
