/-
# Chains of nested imports

While a recipe is being imported, the imports it makes are nested in it. A chain holds the locations
on the way from the recipe that is compiled to the import at hand; a location that is already on
the chain cannot be entered again, and neither can any location once the chain is as long as allowed.

For every location on it, the chain also records what has been reached below: which locations, how
many levels deep, and whether an import there was cut off for being on the chain or too deep. From
the record one can tell under which other chains the recipe would compile to the same graph.
-/

import RecipeGraph.Import.Error
import RecipeGraph.OrderedSet

namespace RecipeGraph

/-- What the compilation of one location reached below it. -/
structure Reach where
  /-- Every location imported below, directly or not. -/
  locations : OrderedSet String
  /-- The longest run of nested imports below. -/
  height : Nat
  /-- Whether an import below was cut off as a cycle or for depth. -/
  truncated : Bool
deriving DecidableEq, Repr

namespace Reach

/-- Nothing has been reached. -/
def nothing : Reach := ⟨.empty, 0, false⟩

instance : Inhabited Reach := ⟨nothing⟩

/-- What is reached by importing one location and nothing below it. -/
def ofImport (location : String) : Reach := ⟨⟨[location]⟩, 1, false⟩

/-- Adds what was reached from a place `distance` levels further down. -/
def adding (reach below : Reach) (distance : Nat) : Reach where
  locations := reach.locations.extend below.locations
  height := max reach.height (distance + below.height)
  truncated := reach.truncated || below.truncated

end Reach

/-- A location being imported, with what has been reached below it so far. -/
structure ImportStep where
  location : String
  reach : Reach
deriving DecidableEq, Repr, Inhabited

/-- The imports in progress, the innermost one first, and how many there may be. -/
structure ImportChain where
  steps : List ImportStep
  maxDepth : Nat
deriving DecidableEq, Repr, Inhabited

namespace ImportChain

/-- How deep imports may be nested unless something else is asked for. -/
def defaultMaxDepth : Nat := 16

/-- The chain of a recipe that is compiled for its own sake. -/
def start (maxDepth : Nat) : ImportChain := ⟨[], maxDepth⟩

/-- The locations on the chain, the outermost one first. -/
def locations (chain : ImportChain) : List String :=
  (chain.steps.map ImportStep.location).reverse

/-- How many imports are in progress. -/
def depth (chain : ImportChain) : Nat :=
  chain.steps.length

/-- Whether a location is being imported. -/
def contains (chain : ImportChain) (location : String) : Bool :=
  chain.steps.any fun step => step.location = location

/-- What has been reached below the innermost import. -/
def reach (chain : ImportChain) : Reach :=
  match chain.steps with
  | [] => .nothing
  | step :: _ => step.reach

/-- Whether a location may be entered, or else why not. -/
def mayEnter (chain : ImportChain) (location : String) : Except ImportError Unit :=
  if chain.contains location then
    .error (.cycle (chain.locations ++ [location]))
  else if chain.maxDepth ≤ chain.depth then
    .error (.depthExceeded location chain.maxDepth)
  else
    .ok ()

/-- The chain with one more import in progress, below which nothing has been reached yet. -/
def push (chain : ImportChain) (location : String) : ImportChain :=
  { chain with steps := ⟨location, .nothing⟩ :: chain.steps }

/-- The chain with one more import in progress, if that import may be made. -/
def enter (chain : ImportChain) (location : String) : Except ImportError ImportChain :=
  match chain.mayEnter location with
  | .ok () => .ok (chain.push location)
  | .error failure => .error failure

/-- The chain after its innermost import is over. -/
def leave (chain : ImportChain) : ImportChain :=
  { chain with steps := chain.steps.tail }

/-- Adds what was reached from `distance` levels below the innermost of some steps to all of them;
every step further out is one level further away. -/
def recordSteps (below : Reach) : (distance : Nat) → List ImportStep → List ImportStep
  | _, [] => []
  | distance, step :: outer =>
    { step with reach := step.reach.adding below distance } ::
      recordSteps below (distance + 1) outer

/-- Records, for every import in progress, what was reached from the innermost one. -/
def record (chain : ImportChain) (below : Reach) : ImportChain :=
  { chain with steps := recordSteps below 0 chain.steps }

/-- Records that the innermost import makes another one. -/
def recordImport (chain : ImportChain) (location : String) : ImportChain :=
  chain.record (.ofImport location)

/-- Records for every import in progress that an import below it was cut off. -/
def recordCut (chain : ImportChain) : ImportChain :=
  { chain with steps := chain.steps.map fun step =>
      { step with reach := { step.reach with truncated := true } } }

end ImportChain

/-- Whether compiling under a chain would give what it gave when this was reached. The chain ends
with the location itself. -/
def Reach.fits (reach : Reach) (chain : ImportChain) : Bool :=
  !reach.truncated && decide (chain.depth + reach.height ≤ chain.maxDepth) &&
    reach.locations.members.all fun location => !chain.contains location

end RecipeGraph
