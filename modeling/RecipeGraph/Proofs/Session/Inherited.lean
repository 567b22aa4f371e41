/-
# Properties that all graphs of a session have

The graphs of a session are built from recipes, imported, kept and copied. What is imported has been
built or copied before, and what a caching resolver keeps are copies. So a property is passed on to
every graph that is compiled in a session if building one recipe keeps to it, provided that imports
do, and if copying a graph keeps it.

Recipes that are read from a text may be known to be of some kind. Those that are handed over as such
have to be of that kind then.
-/

import RecipeGraph.Proofs.Session.Soundness

namespace RecipeGraph

/-- All graphs that a caching resolver keeps have a property. -/
def Cache.Holds (P : Dag → Prop) (cache : Cache) : Prop :=
  ∀ entry ∈ cache.values, P entry.graph

/-- What an import has to come to: a graph it gives has the property, and so have those that are
kept. -/
structure Fetched.Holds (P : Dag → Prop) (fetched : Fetched Cache) : Prop where
  store : fetched.session.store.Holds P
  graph : ∀ graph, fetched.result = .ok graph → P graph

/-- Every import comes to a graph with the property, or to none. -/
def Resolve.Holds (P : Dag → Prop) (resolve : Resolve Cache) : Prop :=
  ∀ location chain session, session.store.Holds P → (resolve location chain session).Holds P

/-- Compiling a text that was found comes to a graph with the property, or to none. -/
def CompileSource.Holds (P : Dag → Prop) (compile : CompileSource Cache) : Prop :=
  ∀ location source chain session, session.store.Holds P →
    (compile location source chain session).Holds P

/-- What an answer has to be: a graph it gives has the property. -/
def Answer.Holds (P : Dag → Prop) (answer : Answer) : Prop :=
  ∀ graph, answer.result = .ok graph → P graph

/-- A property that is passed on from graph to graph where recipes are of some kind. -/
structure Inherited (P : Dag → Prop) (kind : Recipe → Prop) : Prop where
  read : ∀ source, kind (Recipe.parseLenient source).1
  built : ∀ {resolve : Resolve Cache} {recipe : Recipe} {chain : ImportChain} {session : Session Cache},
    resolve.Holds P → kind recipe → session.store.Holds P →
      P (recipe.build resolve chain session).level ∧
        (recipe.build resolve chain session).session.store.Holds P
  copied : ∀ {graph : Dag} (supply : IdSupply), P graph → P (graph.freshCopy supply).1

theorem Fetched.Holds.failed {P : Dag → Prop} {session : Session Cache}
    (store : session.store.Holds P) (failure : ImportError) (chain : ImportChain) :
    Fetched.Holds P ⟨.error failure, chain, session⟩ :=
  ⟨store, nofun⟩

namespace Answer.Holds

variable {P : Dag → Prop}

theorem compiled {made : Compilation} (graph : P made.graph) : (Answer.compiled made).Holds P :=
  fun _ same => Except.ok.inj same ▸ graph

theorem failed (failure : CompileError) : (Answer.failed failure).Holds P := by
  intro graph given
  cases given

end Answer.Holds

namespace Inherited

variable {P : Dag → Prop} {kind : Recipe → Prop}

section Resolving

variable (inherited : Inherited P kind)

include inherited

theorem read_strict {source : String} {recipe : Recipe} (accepted : Recipe.parse source = .ok recipe) :
    kind recipe :=
  (Recipe.parse_ok accepted).1 ▸ inherited.read source

theorem compileSource {resolve : Resolve Cache} (resolves : resolve.Holds P) :
    CompileSource.Holds P (Resolver.compileSource resolve) := by
  intro location source chain session store
  unfold Resolver.compileSource
  split
  · exact .failed store _ chain
  · next recipe accepted =>
      obtain ⟨level, kept⟩ := inherited.built resolves (inherited.read_strict accepted) store
      exact ⟨kept, fun graph given => Except.ok.inj given ▸ level⟩

theorem remember {fetched : Fetched Cache} (holds : fetched.Holds P) (location : String) :
    (Resolver.remember location fetched).Holds P := by
  unfold Resolver.remember
  split
  · exact holds
  · next graph given =>
      split
      · exact holds
      · refine ⟨fun entry held => ?_, holds.graph⟩
        rcases OrderedMap.mem_values_insert held with rfl | old
        · exact inherited.copied _ (holds.graph graph given)
        · exact holds.store entry old

/-- Whichever resolver answers, what it gives has the property if what is compiled has it. -/
theorem answer (bundled : Bundled) {compile : CompileSource Cache} (compiles : compile.Holds P) :
    Resolve.Holds P (bundled.resolver.answer compile) := by
  intro location chain session store
  have found (source : String) := compiles location source chain
    (session.note (.loaded location true)) store
  cases bundled with
  | plain loader =>
      rw [Bundled.resolver, Resolver.plain_answer]
      split
      · exact ⟨store, nofun⟩
      · exact found _
  | caching loader =>
      rw [Bundled.resolver, Resolver.caching_answer]
      split
      · next entry fits =>
          have held := OrderedMap.mem_values_of_get? (Option.filter_eq_some_iff.1 fits).1
          have copied : P (session.copy entry.graph).1 := inherited.copied _ (store entry held)
          exact ⟨store, fun graph given => Except.ok.inj given ▸ copied⟩
      · split
        · exact ⟨store, nofun⟩
        · exact inherited.remember (found _) location
  | noImports => exact .failed store _ chain

/-- However much room there is for imports, they come to graphs with the property. -/
theorem resolveWithin (bundled : Bundled) (room : Nat) :
    Resolve.Holds P (bundled.resolver.resolveWithin room) := by
  induction room with
  | zero => exact fun _ chain _ store => .failed store _ chain
  | succ room step =>
      intro location chain session store
      have fetched := inherited.answer bundled (inherited.compileSource step) location chain
        (session.note (.entered location chain.locations)) store
      exact ⟨fetched.store, fetched.graph⟩

end Resolving

/-! ### Requests -/

section Serving

variable (inherited : Inherited P kind) (bundled : Bundled) {session : Session Cache}

include inherited

theorem compileRecipe (maxDepth : Nat) {recipe : Recipe} (given : kind recipe)
    (store : session.store.Holds P) :
    (Answer.compiled (Compiler.compileRecipe ⟨bundled.resolver, maxDepth⟩ recipe session).1).Holds P ∧
      (Compiler.compileRecipe ⟨bundled.resolver, maxDepth⟩ recipe session).2.store.Holds P := by
  obtain ⟨level, kept⟩ := inherited.built (inherited.resolveWithin bundled (maxDepth - 0)) given store
  exact ⟨.compiled level, kept⟩

theorem serve {request : Request} (given : ∀ recipe, request.task = .recipe recipe → kind recipe)
    (store : session.store.Holds P) :
    (request.serve bundled.resolver session).1.Holds P ∧
      (request.serve bundled.resolver session).2.store.Holds P := by
  obtain ⟨task, maxDepth⟩ := request
  cases task with
  | recipe recipe => exact inherited.compileRecipe bundled maxDepth (given recipe rfl) store
  | lenient source => exact inherited.compileRecipe bundled maxDepth (inherited.read source) store
  | strict source =>
      simp only [Request.serve, Compiler.compile]
      cases accepted : Recipe.parse source with
      | error failure => exact ⟨Answer.Holds.failed _, store⟩
      | ok recipe =>
          exact inherited.compileRecipe bundled maxDepth (inherited.read_strict accepted) store
  | location location =>
      simp only [Request.serve, Compiler.compileLocation]
      cases (ImportChain.start maxDepth).enter location with
      | error failure => exact ⟨Answer.Holds.failed _, store⟩
      | ok inner =>
          have fetched := inherited.resolveWithin bundled (maxDepth - 0) location inner session store
          unfold Resolver.resolveUnder
          change Fetched.Holds P (bundled.resolver.resolveWithin
            ((ImportChain.start maxDepth).maxDepth - (ImportChain.start maxDepth).depth) location
            inner session) at fetched
          dsimp only
          split
          · exact ⟨Answer.Holds.failed _, fetched.store⟩
          · next graph imported =>
              exact ⟨fun _ same => Except.ok.inj same ▸ fetched.graph graph imported, fetched.store⟩

theorem serveAll {requests : List Request}
    (given : ∀ request ∈ requests, ∀ recipe, request.task = .recipe recipe → kind recipe)
    (store : session.store.Holds P) :
    ∀ answer ∈ (RecipeGraph.serveAll bundled.resolver requests session).1, answer.Holds P := by
  induction requests generalizing session with
  | nil => exact nofun
  | cons request rest step =>
      obtain ⟨first, others⟩ := List.forall_mem_cons.1 given
      obtain ⟨here, kept⟩ := inherited.serve bundled first store
      exact List.forall_mem_cons.2 ⟨here, step others kept⟩

end Serving

end Inherited

/-- Every graph that is compiled in a session has a property that is passed on. -/
theorem Bundled.serve_inherited {P : Dag → Prop} {kind : Recipe → Prop}
    (inherited : Inherited P kind) (bundled : Bundled) {requests : List Request}
    (given : ∀ request ∈ requests, ∀ recipe, request.task = .recipe recipe → kind recipe) :
    ∀ answer ∈ (bundled.serve requests).1, answer.Holds P :=
  inherited.serveAll bundled given nofun

end RecipeGraph
