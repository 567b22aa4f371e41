/-
# Requests to a caching resolver

Whatever a session with a cache has been asked before, its next answer is the one that a session
without a cache gives: the same failure, or the same graph with its identifiers renamed, and the
same diagnostics. The two may have gone different ways to get there; all that the cache saves is the
inside of imports, and every reach that is noted is noted by both.
-/

import RecipeGraph.Proofs.Session.Caching

namespace RecipeGraph

variable {σ : Type}

/-- What is paired can be exchanged by a permutation of all identifiers. -/
theorem Pairing.exists_perm {R : Id → Id → Prop} {start stop start' stop' : IdSupply}
    (pairing : Pairing R start stop start' stop') :
    ∃ permutation : Equiv.Perm Id, ∀ id id', R id id' → permutation id = id' := by
  refine exists_perm_of_biUnique pairing.unique ((start.finite_between stop).subset ?_)
  rintro id ⟨id', related⟩
  exact pairing.first id id' related

/-- Results that are alike are the same up to a renaming. -/
theorem ResultsAlike.exists_perm {start stop start' stop' : IdSupply}
    {result result' : Except ImportError Dag}
    (alike : ResultsAlike start stop start' stop' result result') :
    ∃ permutation : Equiv.Perm Id, result' = result.map (Dag.rename permutation) := by
  cases alike with
  | failed failure => exact ⟨.refl Id, rfl⟩
  | given pairing same root root' =>
      obtain ⟨permutation, follows⟩ := pairing.exists_perm
      refine ⟨permutation, congrArg Except.ok (same.eq_rename follows ?_).symm⟩
      rw [root, root']
      exact .none

/-- The answer with the identifiers of its graph renamed. -/
def Answer.rename (renamed : Id → Id) (answer : Answer) : Answer :=
  { answer with result := answer.result.map (Dag.rename renamed) }

/-- An answer of a session with a cache, and the session after it, come to the same as without. -/
structure Answer.Follows (loader : Loader) (session : Session σ) (session' : Session Cache)
    (served : Answer × Session σ) (served' : Answer × Session Cache) : Prop where
  answer : ∃ permutation : Equiv.Perm Id, served'.1 = served.1.rename permutation
  journals : JournalsAlike session.journal session'.journal served.2.journal served'.2.journal
  faithful : Cache.Faithful σ loader served'.2.store

section Serving

variable {loader : Loader} {session : Session σ} {session' : Session Cache}

/-- Nothing happens, and both answer that. -/
theorem Answer.Follows.failed (faithful : Cache.Faithful σ loader session'.store)
    (failure : CompileError) :
    Answer.Follows loader session session' (.failed failure, session) (.failed failure, session') :=
  ⟨⟨.refl Id, rfl⟩, .refl _ _, faithful⟩

/-- Under any settled chain, a recipe is built alike with a cache and without. -/
theorem Recipe.build_follows {chain : ImportChain} (settled : chain.Settled)
    (shallow : chain.depth ≤ chain.maxDepth) (recipe : Recipe) (session : Session σ)
    (faithful : Cache.Faithful σ loader session'.store) :
    let work := recipe.build ((Resolver.plain loader).resolveUnder chain) chain session
    let work' := recipe.build ((Resolver.caching loader).resolveUnder chain) chain session'
    work.outside.Follows loader session.journal session'.journal work'.outside ∧
      ∃ R, Work.Matched R session.supply session'.supply none none work work' := by
  have inStep := (Resolver.caching_follows (σ := σ) loader (chain.maxDepth - chain.depth)).inStep
    (Resolver.plain_explores loader _) session.journal session'.journal
  have joined : Outside.Joined loader (chain.maxDepth - chain.depth) session.journal session'.journal
      ⟨chain, session.journal, session.store⟩ ⟨chain, session'.journal, session'.store⟩ :=
    ⟨settled, Nat.sub_add_cancel shallow, rfl, .refl _ _, faithful⟩
  rcases recipe.build_alike inStep (fun _ _ _ => id) joined
    with away | ⟨⟨_, _, follows⟩, matched⟩
  · exact away.elim
  · exact ⟨follows, matched⟩

/-- A recipe is compiled to the same graph, with the same diagnostics. -/
theorem Compiler.compileRecipe_follows (maxDepth : Nat) (recipe : Recipe)
    (faithful : Cache.Faithful σ loader session'.store) (found : List Diagnostic) :
    let compiled := Compiler.compileRecipe ⟨.plain loader, maxDepth⟩ recipe session
    let compiled' := Compiler.compileRecipe ⟨.caching loader, maxDepth⟩ recipe session'
    Answer.Follows loader session session'
      (⟨.ok compiled.1.graph, found ++ compiled.1.diagnostics⟩, compiled.2)
      (⟨.ok compiled'.1.graph, found ++ compiled'.1.diagnostics⟩, compiled'.2) := by
  obtain ⟨follows, R, matched⟩ := recipe.build_follows (ImportChain.settled_start maxDepth)
    (Nat.zero_le _) session faithful
  obtain ⟨permutation, exchanged⟩ := matched.pairing.exists_perm
  have graph := matched.level.eq_rename exchanged (by
    rw [matched.placed, matched.placed']
    exact .none)
  have answers := congrArg₂ (fun graph (found' : DiagnosticLog) =>
    Answer.mk (.ok graph) (found ++ found'.entries)) graph matched.found
  exact ⟨⟨permutation, answers.symm⟩, follows.journals, follows.faithful⟩

/-- The recipe at a location is what importing the location comes to. -/
theorem Request.serve_location (resolver : Resolver σ) (location : String) (maxDepth : Nat)
    (session : Session σ) :
    Request.serve resolver ⟨.location location, maxDepth⟩ session =
      match (ImportChain.start maxDepth).mayEnter location with
      | .error failure => (.failed (.imported failure), session)
      | .ok () =>
        let fetched := resolver.resolveWithin maxDepth location
          ((ImportChain.start maxDepth).entering location) session
        (⟨fetched.result.mapError .imported, []⟩, fetched.session) := by
  simp only [serve, Compiler.compileLocation, ImportChain.enter]
  cases (ImportChain.start maxDepth).mayEnter location with
  | error failure => rfl
  | ok =>
      have same : resolver.resolveUnder (.start maxDepth) location
          ((ImportChain.start maxDepth).push location) session =
          resolver.resolveWithin maxDepth location ((ImportChain.start maxDepth).entering location)
            session := rfl
      dsimp only
      rw [same]
      generalize resolver.resolveWithin maxDepth location _ session = fetched
      obtain ⟨result, chain, session⟩ := fetched
      cases result with
      | error failure => rfl
      | ok graph => rfl

/-- A renaming does not touch failures. -/
private theorem mapError_map (renamed : Id → Id) (result : Except ImportError Dag) :
    (result.map (Dag.rename renamed)).mapError CompileError.imported =
      (result.mapError CompileError.imported).map (Dag.rename renamed) := by
  cases result with
  | error failure => rfl
  | ok graph => rfl

/-- Every request is answered alike with a cache and without. -/
theorem Request.serve_follows (request : Request) (session : Session σ) {session' : Session Cache}
    (faithful : Cache.Faithful σ loader session'.store) :
    Answer.Follows loader session session' (request.serve (.plain loader) session)
      (request.serve (.caching loader) session') := by
  obtain ⟨task, maxDepth⟩ := request
  cases task with
  | recipe recipe => exact Compiler.compileRecipe_follows maxDepth recipe faithful []
  | lenient source =>
      exact Compiler.compileRecipe_follows maxDepth (Recipe.parseLenient source).1 faithful
        (Recipe.parseLenient source).2
  | strict source =>
      simp only [Request.serve, Compiler.compile]
      cases Recipe.parse source with
      | error failure => exact .failed faithful _
      | ok recipe => exact Compiler.compileRecipe_follows maxDepth recipe faithful []
  | location location =>
      rw [serve_location, serve_location]
      cases admitted : (ImportChain.start maxDepth).mayEnter location with
      | error failure => exact .failed faithful _
      | ok =>
          have entered : ((ImportChain.start maxDepth).entering location).Entered maxDepth :=
            ImportChain.entered_entering rfl admitted
          obtain ⟨follows, alike⟩ := Resolver.caching_follows loader maxDepth location _ session
            session' entered faithful
          obtain ⟨permutation, same⟩ := alike.results.exists_perm
          refine ⟨⟨permutation, ?_⟩, follows.journals, follows.faithful⟩
          dsimp only [Answer.rename]
          rw [same, mapError_map]

/-- After any requests, the cache is faithful to whatever session it is compared with. -/
theorem serveAll_faithful (requests : List Request) (session : Session σ) {session' : Session Cache}
    (faithful : Cache.Faithful σ loader session'.store) :
    Cache.Faithful σ loader (serveAll (.caching loader) requests session').2.store := by
  induction requests generalizing session' with
  | nil => exact faithful
  | cons request rest step => exact step (request.serve_follows session faithful).faithful

end Serving

/-- Caching never changes a result. -/
theorem Bundled.caching_transparent (loader : Loader) (earlier : List Request) (request : Request)
    (uncached : Session σ) :
    let session := ((Bundled.caching loader).serve earlier).2
    let answered := request.serve (.plain loader) uncached
    let answered' := request.serve (.caching loader) session
    (∃ permutation : Equiv.Perm Id, answered'.1 = answered.1.rename permutation) ∧
      ∃ full short, answered.2.journal = uncached.journal ++ full ∧
        answered'.2.journal = session.journal ++ short ∧ Abridges full short := by
  intro session answered answered'
  have faithful : Cache.Faithful σ loader session.store :=
    serveAll_faithful earlier uncached (Cache.faithful_empty loader)
  have follows := request.serve_follows uncached faithful
  exact ⟨follows.answer, follows.journals⟩

end RecipeGraph
