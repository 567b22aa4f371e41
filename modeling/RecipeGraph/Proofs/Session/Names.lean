/-
# Names in compiled graphs

A text that is read has proper names, so what a resolver compiles has proper names as well, and what
it keeps and copies. Only a recipe that is handed over as such might have others. In a session in
which no such recipe has, every graph that is compiled has proper names at all its levels.
-/

import RecipeGraph.Proofs.Build.Names
import RecipeGraph.Proofs.Session.Inherited

namespace RecipeGraph

/-- What a caching resolver keeps has proper names. -/
def Cache.Named (cache : Cache) : Prop :=
  ∀ entry ∈ cache.values, entry.graph.NamedThroughout

/-- Proper names are passed on from graph to graph where recipes have proper names. -/
theorem inherited_names : Inherited Dag.NamedThroughout Recipe.Named where
  read := Recipe.parseLenient_named
  built {resolve _ chain _} resolves named store := by
    have imports : resolve.Named Cache.Named := fun location chain session kept =>
      have fetched := resolves location chain session kept
      ⟨fetched.store, fetched.graph⟩
    have built := Recipe.build_named imports named chain store
    exact ⟨built.level, built.store⟩
  copied supply named := Dag.NamedThroughout.freshCopy named supply

/-- A recipe that is handed over as such has proper names. Of texts nothing is asked. -/
def Request.Named (request : Request) : Prop :=
  ∀ recipe, request.task = .recipe recipe → recipe.Named

/-- What an answer has to be: its graph has proper names. -/
def Answer.Named (answer : Answer) : Prop :=
  ∀ graph, answer.result = .ok graph → graph.NamedThroughout

/-- Every graph that is compiled in a session has proper names. -/
theorem Bundled.serve_named (bundled : Bundled) {requests : List Request}
    (named : ∀ request ∈ requests, request.Named) :
    ∀ answer ∈ (bundled.serve requests).1, answer.Named :=
  serve_inherited inherited_names bundled named

end RecipeGraph
