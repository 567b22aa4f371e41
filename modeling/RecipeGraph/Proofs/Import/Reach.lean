/-
# How reaches add up along a chain

What is recorded on a chain is added to the reach of every import in progress, one level further
away for every step outwards. Adding is associative once distances are counted in, so any number of
records is one record, and what an import records while it is entered amounts to one record on the
chain it was entered from. A reach can only grow; whether one reach lies within another decides
whether two chains cut the same imports.
-/

import RecipeGraph.Import.Chain
import RecipeGraph.Proofs.Data.Extension

namespace RecipeGraph

namespace Reach

/-- An import below was cut off, and nothing else has been reached. -/
def cut : Reach := ⟨.empty, 0, true⟩

/-- Adding one reach after the other is adding their sum, with the distances added up. -/
theorem adding_adding (reach first second : Reach) (distance further : Nat) :
    (reach.adding first distance).adding second (distance + further) =
      reach.adding (first.adding second further) distance := by
  simp only [adding, OrderedSet.extend_extend, Bool.or_assoc]
  congr 1
  omega

@[simp] theorem adding_nothing (reach : Reach) : reach.adding .nothing 0 = reach := by
  simp [adding, nothing]

/-- One reach lies within another: it has no further locations, it is not higher, and it is not cut
off unless the other one is. -/
structure Within (reach bound : Reach) : Prop where
  locations : ∀ location ∈ reach.locations.members, location ∈ bound.locations.members
  height : reach.height ≤ bound.height
  truncated : reach.truncated = true → bound.truncated = true

theorem Within.refl (reach : Reach) : reach.Within reach :=
  ⟨fun _ held => held, Nat.le_refl _, id⟩

/-- A sum lies within a bound exactly when both parts do. -/
theorem adding_within_iff {reach below bound : Reach} {distance : Nat} :
    (reach.adding below distance).Within bound ↔ reach.Within bound ∧
      (∀ location ∈ below.locations.members, location ∈ bound.locations.members) ∧
      distance + below.height ≤ bound.height ∧
      (below.truncated = true → bound.truncated = true) := by
  constructor
  · rintro ⟨locations, height, truncated⟩
    simp only [adding] at locations height truncated
    refine ⟨⟨?_, by omega, ?_⟩, ?_, by omega, ?_⟩
    · exact fun location held => locations location ((OrderedSet.mem_extend _ _ _).2 (.inr held))
    · exact fun cut => truncated (by rw [cut, Bool.true_or])
    · exact fun location held => locations location ((OrderedSet.mem_extend _ _ _).2 (.inl held))
    · exact fun cut => truncated (by rw [cut, Bool.or_true])
  · rintro ⟨within, locations, height, truncated⟩
    refine ⟨?_, ?_, ?_⟩
    · intro location held
      rcases (OrderedSet.mem_extend _ _ _).1 held with new | old
      · exact locations location new
      · exact within.locations location old
    · exact Nat.max_le.2 ⟨within.height, height⟩
    · intro cut
      rcases Bool.or_eq_true _ _ ▸ cut with old | new
      · exact within.truncated old
      · exact truncated new

/-- What is added at the same place lies within whatever the sum lies within. -/
theorem Within.of_adding {reach below bound : Reach} (within : (reach.adding below 0).Within bound) :
    reach.Within bound ∧ below.Within bound := by
  obtain ⟨here, locations, height, truncated⟩ := adding_within_iff.1 within
  exact ⟨here, locations, Nat.zero_add below.height ▸ height, truncated⟩

end Reach

namespace ImportChain

theorem recordSteps_recordSteps (first second : Reach) (distance further : Nat)
    (steps : List ImportStep) :
    recordSteps second (distance + further) (recordSteps first distance steps) =
      recordSteps (first.adding second further) distance steps := by
  induction steps generalizing distance with
  | nil => rfl
  | cons step outer rest =>
      have here := rest (distance + 1)
      rw [Nat.add_right_comm] at here
      simp only [recordSteps, here, Reach.adding_adding]

/-- Two records are one. -/
theorem record_record (chain : ImportChain) (first second : Reach) :
    (chain.record first).record second = chain.record (first.adding second 0) := by
  simp only [record]
  exact congrArg (ImportChain.mk · _) (recordSteps_recordSteps first second 0 0 chain.steps)

private theorem map_recordSteps (below : Reach) (distance : Nat) (steps : List ImportStep) :
    (recordSteps below distance steps).map ImportStep.location = steps.map ImportStep.location := by
  induction steps generalizing distance with
  | nil => rfl
  | cons step outer rest => simp only [recordSteps, List.map_cons, rest]

@[simp] theorem locations_record (chain : ImportChain) (below : Reach) :
    (chain.record below).locations = chain.locations := by
  simp only [locations, record, map_recordSteps]

@[simp] theorem maxDepth_record (chain : ImportChain) (below : Reach) :
    (chain.record below).maxDepth = chain.maxDepth := rfl

@[simp] theorem depth_record (chain : ImportChain) (below : Reach) :
    (chain.record below).depth = chain.depth := by
  have same := congrArg List.length (map_recordSteps below 0 chain.steps)
  simpa [depth, record] using same

theorem contains_iff (chain : ImportChain) (location : String) :
    chain.contains location = true ↔ location ∈ chain.locations := by
  simp [contains, locations]

@[simp] theorem contains_record (chain : ImportChain) (below : Reach) (location : String) :
    (chain.record below).contains location = chain.contains location := by
  rw [Bool.eq_iff_iff, contains_iff, contains_iff, locations_record]

theorem mayEnter_eq_ok_iff {chain : ImportChain} {location : String} :
    chain.mayEnter location = .ok () ↔
      chain.contains location = false ∧ chain.depth < chain.maxDepth := by
  unfold mayEnter
  split
  · next held => simp [held]
  · next absent =>
      split
      · next full => simp [Nat.not_lt.2 full]
      · next room => simp [absent, Nat.lt_of_not_le room]

/-! ### Settled chains -/

/-- On a settled chain nothing can be added by recording nothing: every import in progress has been
recorded on those around it. -/
def Settled (chain : ImportChain) : Prop :=
  chain.record .nothing = chain

theorem settled_record (chain : ImportChain) (below : Reach) : (chain.record below).Settled := by
  rw [Settled, record_record, Reach.adding_nothing]

theorem settled_start (maxDepth : Nat) : (start maxDepth).Settled := rfl

/-- The chain on which a location is entered: it is recorded on all steps and then put in front. -/
def entering (chain : ImportChain) (location : String) : ImportChain :=
  (chain.recordImport location).push location

/-- Whatever is recorded while a location is entered is, once it is left, one record on the chain it
was entered from. -/
theorem leave_record_entering (chain : ImportChain) (location : String) (below : Reach) :
    ((chain.entering location).record below).leave =
      chain.record ((Reach.ofImport location).adding below 1) := by
  have moved := recordSteps_recordSteps (.ofImport location) below 0 1 chain.steps
  exact congrArg (ImportChain.mk · _) moved

theorem settled_entering (chain : ImportChain) (location : String) :
    (chain.entering location).Settled := by
  have outer := recordSteps_recordSteps (.ofImport location) .nothing 0 1 chain.steps
  exact congrArg (fun steps => ImportChain.mk (⟨location, .nothing⟩ :: steps) chain.maxDepth) outer

@[simp] theorem depth_entering (chain : ImportChain) (location : String) :
    (chain.entering location).depth = chain.depth + 1 :=
  congrArg (· + 1) (chain.depth_record (.ofImport location))

@[simp] theorem maxDepth_entering (chain : ImportChain) (location : String) :
    (chain.entering location).maxDepth = chain.maxDepth := rfl

theorem contains_entering (chain : ImportChain) (location other : String) :
    (chain.entering location).contains other = (decide (location = other) || chain.contains other) :=
  congrArg (decide (location = other) || ·) (chain.contains_record (.ofImport location) other)

@[simp] theorem reach_entering (chain : ImportChain) (location : String) :
    (chain.entering location).reach = .nothing := rfl

/-- What is recorded on a chain with an import in progress adds to its reach. -/
theorem reach_record {chain : ImportChain} (entered : chain.steps ≠ []) (below : Reach) :
    (chain.record below).reach = chain.reach.adding below 0 := by
  obtain ⟨steps, maxDepth⟩ := chain
  cases steps with
  | nil => exact absurd rfl entered
  | cons step outer => rfl

theorem record_steps_ne_nil {chain : ImportChain} (entered : chain.steps ≠ []) (below : Reach) :
    (chain.record below).steps ≠ [] := by
  obtain ⟨steps, maxDepth⟩ := chain
  cases steps with
  | nil => exact absurd rfl entered
  | cons step outer => exact List.cons_ne_nil _ _

/-- On a settled chain a cut is recorded like anything else. -/
theorem Settled.recordCut {chain : ImportChain} (settled : chain.Settled) :
    chain.recordCut = chain.record .cut := by
  have steps : ∀ (distance : Nat) (steps : List ImportStep),
      (recordSteps .nothing distance steps).map (fun step =>
        { step with reach := { step.reach with truncated := true } }) =
        recordSteps .cut distance steps := by
    intro distance steps
    induction steps generalizing distance with
    | nil => rfl
    | cons step outer rest =>
        rw [recordSteps, List.map_cons, rest, recordSteps]
        simp [Reach.adding, Reach.nothing, Reach.cut]
  have here : (chain.record .nothing).recordCut = chain.record .cut :=
    congrArg (ImportChain.mk · _) (steps 0 chain.steps)
  rw [settled] at here
  exact here

/-- The record that a settled chain ends up with can be read off its innermost step, if nothing was
reached below that step before. -/
theorem Settled.eq_record_reach {chain : ImportChain} (settled : chain.Settled)
    (entered : chain.steps ≠ []) (fresh : chain.reach = .nothing) (below : Reach) :
    chain.record (chain.record below).reach = chain.record below := by
  rw [reach_record entered, fresh, ← record_record, settled]

end ImportChain

/-! ### Reaches that fit a chain -/

namespace Reach

open ImportChain

theorem fits_iff {reach : Reach} {chain : ImportChain} :
    reach.fits chain = true ↔ reach.truncated = false ∧
      chain.depth + reach.height ≤ chain.maxDepth ∧
      ∀ location ∈ reach.locations.members, chain.contains location = false := by
  simp [fits, and_assoc]

/-- If what is reached through a location lies within something that fits a chain, then the chain
admits the location, and what is reached below it fits the longer chain. -/
theorem fits_entering {bound below : Reach} {chain : ImportChain} {location : String}
    (fits : bound.fits chain = true) (within : ((ofImport location).adding below 1).Within bound)
    (apart : location ∉ below.locations.members) :
    chain.mayEnter location = .ok () ∧ below.fits (chain.entering location) = true := by
  obtain ⟨whole, room, clear⟩ := fits_iff.1 fits
  obtain ⟨here, locations, height, truncated⟩ := adding_within_iff.1 within
  have absent : chain.contains location = false :=
    clear location (here.locations location List.mem_cons_self)
  have space : chain.depth + 1 + below.height ≤ chain.maxDepth := by
    omega
  refine ⟨mayEnter_eq_ok_iff.2 ⟨absent, by omega⟩, fits_iff.2 ⟨?_, ?_, ?_⟩⟩
  · cases cut : below.truncated with
    | false => rfl
    | true => exact absurd (truncated cut) (by simp [whole])
  · rw [depth_entering, maxDepth_entering]
    exact space
  · intro other held
    have different : location ≠ other := fun same => apart (same ▸ held)
    rw [contains_entering, clear other (locations other held), decide_eq_false different]
    rfl

end Reach

end RecipeGraph
