/-
# Chains that grow from one another

Several chains may be entered from the same one, and each of them may be entered further. What is
recorded below a location counts for every chain that leads through it. A forest therefore keeps
one record for each location ever entered, together with the place it was entered from; a chain is
the way from such a place back to where it started.
-/

import RecipeGraph.Import.Chain

namespace RecipeGraph

/-- Names a chain in a forest: where its innermost import is recorded, if it has any, and how many
imports it may hold. -/
structure ChainName where
  innermost : Option Nat
  maxDepth : Nat
deriving DecidableEq, Repr, Inhabited

/-- An import recorded in a forest, with the number of the record it was entered from. -/
structure ForestRecord where
  step : ImportStep
  outer : Option Nat
deriving Repr, Inhabited

/-- All imports ever entered, numbered in the order of entering. -/
structure ImportForest where
  records : List ForestRecord
deriving Repr, Inhabited

namespace ImportForest

/-- The forest in which nothing has been entered. -/
def empty : ImportForest := ⟨[]⟩

/-- The numbers of the records on the way out from one of them. A record is entered from an
earlier one, so the way is at most `bound` long if the number is below it. -/
def wayOut (forest : ImportForest) : (bound : Nat) → (number : Option Nat) → List Nat
  | _, none => []
  | 0, some _ => []
  | bound + 1, some number =>
    match forest.records[number]? with
    | some record => number :: forest.wayOut bound record.outer
    | none => []

/-- The numbers of the records of a chain, the innermost one first. -/
def numbers (forest : ImportForest) (name : ChainName) : List Nat :=
  forest.wayOut forest.records.length name.innermost

/-- The chain of a given name as it stands. -/
def chain (forest : ImportForest) (name : ChainName) : ImportChain where
  steps := (forest.numbers name).filterMap fun number =>
    forest.records[number]?.map ForestRecord.step
  maxDepth := name.maxDepth

/-- Enters a location from a chain, if the chain admits it. -/
def enter (forest : ImportForest) (name : ChainName) (location : String) :
    Except ImportError (ChainName × ImportForest) :=
  match (forest.chain name).mayEnter location with
  | .error failure => .error failure
  | .ok () =>
    .ok ({ name with innermost := some forest.records.length },
      ⟨forest.records ++ [⟨⟨location, .nothing⟩, name.innermost⟩]⟩)

/-- Replaces what is recorded under a number. -/
def setReach (forest : ImportForest) (number : Nat) (reach : Reach) : ImportForest :=
  ⟨forest.records.modify number fun record =>
    { record with step := { record.step with reach := reach } }⟩

/-- Takes over what a chain of a given name has recorded since it was read from the forest. -/
def store (forest : ImportForest) (name : ChainName) (chain : ImportChain) : ImportForest :=
  ((forest.numbers name).zip chain.steps).foldl
    (fun forest entry => forest.setReach entry.1 entry.2.reach) forest

end ImportForest

end RecipeGraph
