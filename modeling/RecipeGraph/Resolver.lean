/-
# Resolvers

A resolver turns the location of an import into a graph. It is told how to compile a text that it
finds at the location; imports made by that text come back to the same resolver. How deep imports
may be nested bounds how often that happens: every import takes up one place on the chain.

A resolver without memory compiles what its loader finds each time anew. A caching resolver keeps
what it has compiled together with what was reached below, and hands out copies as long as compiling
again would give the same graph. Failures and graphs in which an import was cut off are not kept.
-/

import RecipeGraph.Build.Statement
import RecipeGraph.Dag.FreshCopy
import RecipeGraph.Import.Loader
import RecipeGraph.Parser

namespace RecipeGraph

/-- How the text found at a location is compiled under the chain that ends with the location. -/
abbrev CompileSource (σ : Type) : Type :=
  (location source : String) → ImportChain → Session σ → Fetched σ

/-- A way to answer imports, given how to compile what is found. -/
structure Resolver (σ : Type) where
  answer : CompileSource σ → Resolve σ

namespace Resolver

variable {σ : Type}

/-- Compiles the text of an import, whose own imports are answered by `resolve`. Warnings about it
go to the log; they do not concern whoever imports it. -/
def compileSource (resolve : Resolve σ) : CompileSource σ := fun location source chain session =>
  match Recipe.parse source with
  | .error failure => ⟨.error (.malformed location failure), chain, session⟩
  | .ok recipe =>
    let work := recipe.build resolve chain session
    ⟨.ok work.level, work.chain, work.session⟩

/-- Notes in the journal that a location is entered, and when it is left, what was reached below. -/
def journaled (resolve : Resolve σ) : Resolve σ := fun location chain session =>
  let fetched := resolve location chain (session.note (.entered location chain.locations))
  { fetched with
    session := fetched.session.note
      (.left location chain.depth fetched.result.isOk fetched.chain.reach) }

/-- Answers imports that may be nested to a depth of `room`. No chain with less room than that is
ever asked to hold more, so the case without room does not arise on chains entered one by one. -/
def resolveWithin (resolver : Resolver σ) : (room : Nat) → Resolve σ
  | 0, location, chain, session => ⟨.error (.depthExceeded location chain.maxDepth), chain, session⟩
  | room + 1, location, chain, session =>
    journaled (resolver.answer (compileSource fun inner => resolver.resolveWithin room inner))
      location chain session

/-- How the builder of a recipe under a chain imports: with the room that the chain leaves. -/
def resolveUnder (resolver : Resolver σ) (chain : ImportChain) : Resolve σ :=
  resolver.resolveWithin (chain.maxDepth - chain.depth)

/-- Asks the loader for a text and notes in the journal whether there is one. -/
def load (loader : Loader) (location : String) (session : Session σ) :
    Except ImportError String × Session σ :=
  let result := loader location
  (result, session.note (.loaded location result.isOk))

/-- Compiles what a loader finds, each time anew. -/
def plain (loader : Loader) : Resolver σ where
  answer compile location chain session :=
    match load loader location session with
    | (.error failure, session) => ⟨.error failure, chain, session⟩
    | (.ok source, session) => compile location source chain session

/-- Answers no import. -/
def noImports : Resolver σ where
  answer _ location chain session := ⟨.error (.unsupported location), chain, session⟩

/-- Hands out graphs prepared for some locations to the recipe that is compiled for its own sake,
and answers every other import as a given resolver does. -/
def prepared (graphs : OrderedMap String Dag) (others : Resolver σ) : Resolver σ where
  answer compile location chain session :=
    match graphs.get? location with
    | some graph =>
      if chain.depth = 1 then ⟨.ok graph, chain, session⟩
      else others.answer compile location chain session
    | none => others.answer compile location chain session

end Resolver

/-- A graph kept by a caching resolver, with what was reached below its location. -/
structure CacheEntry where
  graph : Dag
  reach : Reach

/-- What a caching resolver keeps, by location. -/
abbrev Cache : Type := OrderedMap String CacheEntry

namespace Cache

/-- What is kept for a location, if compiling it under the chain would give the same graph. -/
def fitting? (cache : Cache) (location : String) (chain : ImportChain) : Option CacheEntry :=
  (cache.get? location).filter fun entry => entry.reach.fits chain

end Cache

namespace Session

/-- Takes a copy of a graph under identifiers of its own. -/
def copy {σ : Type} (session : Session σ) (graph : Dag) : Dag × Session σ :=
  let (copied, supply) := graph.freshCopy session.supply
  (copied, { session with supply := supply })

/-- Keeps a copy of a graph for a location. -/
def keep (session : Session Cache) (location : String) (graph : Dag) (reach : Reach) :
    Session Cache :=
  let (copied, session) := session.copy graph
  { session with store := session.store.insert location ⟨copied, reach⟩ }

end Session

namespace Resolver

/-- Compiles what a loader finds and keeps it for the next time. -/
def caching (loader : Loader) : Resolver Cache where
  answer compile location chain session :=
    match session.store.fitting? location chain with
    | some entry =>
      let (graph, session) := session.copy entry.graph
      ⟨.ok graph, chain.record entry.reach, session⟩
    | none =>
      match load loader location session with
      | (.error failure, session) => ⟨.error failure, chain, session⟩
      | (.ok source, session) =>
        let fetched := compile location source chain session
        match fetched.result with
        | .error _ => fetched
        | .ok graph =>
          let reach := fetched.chain.reach
          if reach.truncated then fetched
          else { fetched with session := fetched.session.keep location graph reach }

end Resolver

end RecipeGraph
