/-
# Sessions

Several recipes may be compiled one after the other through one resolver. What outlives a single
compilation is the session: the supply of identifiers, the log of warnings, a journal of what was
asked of the loader and of every import, and whatever the resolver keeps for itself.
-/

import RecipeGraph.Dag.Basic
import RecipeGraph.Import.Chain

namespace RecipeGraph

/-- What happened while imports were resolved. -/
inductive JournalEntry where
  /-- The loader was asked for the text at a location. -/
  | loaded (location : String) (found : Bool)
  /-- The resolver was asked for a location, under a chain that ends with it. -/
  | entered (location : String) (chain : List String)
  /-- The resolver answered, having reached this much below the location. -/
  | left (location : String) (depth : Nat) (succeeded : Bool) (reach : Reach)
deriving DecidableEq, Repr

/-- What compilations that share a resolver have in common; `σ` is what the resolver keeps. -/
structure Session (σ : Type) where
  supply : IdSupply
  /-- The messages of the warnings logged so far. -/
  log : List String
  journal : List JournalEntry
  store : σ

namespace Session

variable {σ : Type}

/-- A session in which nothing has happened. -/
def start (store : σ) : Session σ :=
  ⟨.start, [], [], store⟩

/-- Takes an identifier that nothing else has. -/
def freshId (session : Session σ) : Id × Session σ :=
  let (id, supply) := session.supply.take
  (id, { session with supply := supply })

/-- Writes a message to the log. -/
def warn (session : Session σ) (message : String) : Session σ :=
  { session with log := session.log ++ [message] }

/-- Writes an entry into the journal. -/
def note (session : Session σ) (entry : JournalEntry) : Session σ :=
  { session with journal := session.journal ++ [entry] }

end Session

/-- The outcome of importing a location under a chain. The chain comes back with everything that
was recorded on it. -/
structure Fetched (σ : Type) where
  result : Except ImportError Dag
  chain : ImportChain
  session : Session σ

/-- A way to import a location under a chain that ends with it. -/
abbrev Resolve (σ : Type) : Type :=
  String → ImportChain → Session σ → Fetched σ

end RecipeGraph
