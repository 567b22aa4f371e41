/-
# The chains that resolvers are handed

A location is entered only if it is not on the chain yet, and a chain goes on from a location only
if there is a text at it. Hence no location stands on a chain twice, and if the texts come from a
table, all locations but the last are among its keys. This bounds the length of a chain however deep
imports may be nested, and it makes the positions on a chain and the sizes computed from them fit
together.
-/

import Mathlib.Data.List.Dedup
import Mathlib.Data.List.Perm.Subperm
import RecipeGraph.Proofs.Data.OrderedMap
import RecipeGraph.Proofs.Session.Cuts

namespace RecipeGraph.ImportChain

/-- What holds of a chain that is handed to a resolver together with a location, if imports may be
nested to a depth of `maxDepth` and there are `entries` texts to be imported. -/
structure Handed (maxDepth entries : Nat) (location : String) (chain : ImportChain) : Prop where
  ends : chain.locations.getLast? = some location
  distinct : chain.locations.Nodup
  /-- There is one record of what has been reached for each location. -/
  reaches : ∀ other ∈ chain.locations, ∃! reach, ⟨other, reach⟩ ∈ chain.steps
  bound : chain.maxDepth = maxDepth
  shallow : chain.depth ≤ maxDepth
  short : chain.depth ≤ entries + 1

variable {chain : ImportChain} {maxDepth entries : Nat} {location : String}

theorem locations_eq (chain : ImportChain) : chain.locations = chain.way.reverse := rfl

/-- Where no location stands twice, each has one record. -/
theorem reach_unique (distinct : chain.way.Nodup) {other : String} (held : other ∈ chain.way) :
    ∃! reach, ⟨other, reach⟩ ∈ chain.steps := by
  obtain ⟨⟨_, reach⟩, inside, rfl⟩ := List.mem_map.1 held
  refine ⟨reach, inside, fun reach' inside' => ?_⟩
  have same := List.inj_on_of_nodup_map distinct inside' inside rfl
  exact congrArg ImportStep.reach same

/-! ### Records, counted from the outermost import -/

theorem getElem?_recordSteps (below : Reach) (distance : Nat) (steps : List ImportStep)
    (index : Nat) :
    (recordSteps below distance steps)[index]? = steps[index]?.map fun step =>
      { step with reach := step.reach.adding below (distance + index) } := by
  induction steps generalizing distance index with
  | nil => rfl
  | cons step outer rest =>
      cases index with
      | zero => rfl
      | succ index =>
          rw [recordSteps, List.getElem?_cons_succ, List.getElem?_cons_succ, rest, Nat.add_right_comm,
            Nat.add_assoc]

/-- What is reached from the innermost import is reached from the import at some index, counted from
the outermost one, at a distance of as many levels as are left behind that index. -/
theorem getElem?_record (chain : ImportChain) (below : Reach) {index : Nat}
    (inside : index < chain.depth) :
    (chain.record below).steps.reverse[index]? = chain.steps.reverse[index]?.map fun step =>
      { step with reach := step.reach.adding below (chain.depth - 1 - index) } := by
  have length : (chain.record below).steps.length = chain.steps.length := chain.depth_record below
  rw [List.getElem?_reverse (by rw [length]; exact inside), List.getElem?_reverse inside, length]
  simp only [record, getElem?_recordSteps, Nat.zero_add]
  rfl

/-- On a chain that is handed to a resolver there are as many records as there are different
locations, and so every index of a record is less than the number of locations. -/
theorem Handed.length_dedup (handed : chain.Handed maxDepth entries location) :
    chain.locations.dedup.length = chain.depth := by
  rw [handed.distinct.dedup, length_locations]

/-! ### Chains over a table -/

variable {table : OrderedMap String String} {outer : List String}

/-- A way that imports may go on from: no location stands on it twice, and there is a text at each
of them. -/
structure Passable (table : OrderedMap String String) (way : List String) : Prop where
  distinct : way.Nodup
  known : ∀ location ∈ way, location ∈ table.keys

theorem Passable.nothing : Passable table [] :=
  ⟨List.nodup_nil, nofun⟩

/-- A way is not longer than the table. -/
theorem Passable.length_le {way : List String} (passable : Passable table way) :
    way.length ≤ table.size := by
  have fewer := (List.subperm_of_subset passable.distinct passable.known).length_le
  rwa [OrderedMap.keys, List.length_map] at fewer

/-- A chain has come by a passable way to a location that is not on it. -/
structure Reaching (table : OrderedMap String String) (maxDepth : Nat) (location : String)
    (outer : List String) (chain : ImportChain) : Prop where
  way : chain.way = location :: outer
  bound : chain.maxDepth = maxDepth
  passable : Passable table outer
  new : location ∉ outer
  shallow : chain.depth ≤ maxDepth

theorem Reaching.distinct (reaching : chain.Reaching table maxDepth location outer) :
    (location :: outer).Nodup :=
  List.nodup_cons.2 ⟨reaching.new, reaching.passable.distinct⟩

/-- Imports may go on from a location if there is a text at it. -/
theorem Reaching.goesOn (reaching : chain.Reaching table maxDepth location outer)
    (known : location ∈ table.keys) : Passable table (location :: outer) where
  distinct := reaching.distinct
  known := List.forall_mem_cons.2 ⟨known, reaching.passable.known⟩

theorem Reaching.depth_eq (reaching : chain.Reaching table maxDepth location outer) :
    chain.depth = outer.length + 1 := by
  rw [← length_way, reaching.way, List.length_cons]

theorem Reaching.handed (reaching : chain.Reaching table maxDepth location outer) :
    chain.Handed maxDepth table.size location where
  ends := by
    rw [locations_eq, reaching.way, List.getLast?_reverse]
    rfl
  distinct := by
    rw [locations_eq, reaching.way, List.nodup_reverse]
    exact reaching.distinct
  reaches := fun other held => reach_unique (reaching.way ▸ reaching.distinct)
    (List.mem_reverse.1 held)
  bound := reaching.bound
  shallow := reaching.shallow
  short := by
    rw [reaching.depth_eq]
    exact Nat.succ_le_succ reaching.passable.length_le

/-- A location that a chain admits may be entered from it. -/
theorem reaching_entering {way : List String} (along : chain.way = way)
    (bound : chain.maxDepth = maxDepth) (passable : Passable table way)
    (admitted : chain.mayEnter location = .ok ()) :
    (chain.entering location).Reaching table maxDepth location way where
  way := along ▸ chain.way_entering location
  bound := bound
  passable := passable
  new := fun held => by
    have absent := (mayEnter_eq_ok_iff.1 admitted).1
    rw [mem_way_iff.1 (along ▸ held)] at absent
    cases absent
  shallow := by
    have room := (mayEnter_eq_ok_iff.1 admitted).2
    rw [depth_entering]
    omega

end RecipeGraph.ImportChain
