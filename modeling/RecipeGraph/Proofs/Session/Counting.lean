/-
# Counts on compiled levels

Building performs operations on graphs, and a copy is made by one, so every graph that is compiled has
been built by operations, and no registry of it holds a name twice. Its levels are sound, too, and
their identifiers are used once. That is all it takes for what is counted on a level to add up.
-/

import RecipeGraph.Proofs.Build.Built
import RecipeGraph.Proofs.Graph.Counting
import RecipeGraph.Proofs.Graph.Throughout
import RecipeGraph.Proofs.Session.Inherited

namespace RecipeGraph

/-- Having been built by operations is passed on from graph to graph, whatever the recipes. -/
theorem inherited_built : Inherited Dag.Built fun _ => True where
  read _ := trivial
  built {resolve recipe chain _} resolves _ store := by
    have imports : resolve.Built (Cache.Holds Dag.Built) := fun location chain session kept =>
      have fetched := resolves location chain session kept
      ⟨fetched.store, fetched.graph⟩
    have built := recipe.build_built imports chain store
    exact ⟨built.level, built.store⟩
  copied supply built := built.change (.freshCopy supply) rfl

namespace Bundled

/-- Every graph that is compiled in a session has been built by operations. -/
theorem serve_built (bundled : Bundled) (requests : List Request) :
    ∀ answer ∈ (bundled.serve requests).1, ∀ graph, answer.result = .ok graph → graph.Built :=
  serve_inherited inherited_built bundled fun _ _ _ _ => trivial

/-- On every level of every compiled graph, whatever is counted adds up. The edges into the elements
are all the edges, and so are the edges out of them. The counts of variables make up all variables;
each is the number of variables that stand for an element of the level. Unless the level is empty,
there is an element that nothing flows into, and one that nothing flows out of. -/
theorem counts_add_up (bundled : Bundled) (requests : List Request) :
    ∀ answer ∈ (bundled.serve requests).1, ∀ graph, answer.result = .ok graph →
      ∀ level, graph.HasLevel level → level.AddsUp := by
  intro answer held graph given level has
  have sound := (bundled.serve_sound requests).1 answer held
  have unique := has.ids_nodup (sound.distinct graph given)
  have filed := (bundled.serve_built requests answer held graph given).filed level has
  exact (sound.whole graph given level has).addsUp unique filed.variableIds

/-- A level with three names for one node, and with a level nested in it. -/
def stew : List Request :=
  [⟨.strict "a, b = fry(chop())\nc = a\npan[oil = heat()]\nboil(pan.oil, c, b)", 1⟩]

theorem counts_add_up_of_stew :
    ∃ answer ∈ (noImports.serve stew).1, ∃ graph : Dag, answer.result = .ok graph ∧
      graph.HasLevel graph ∧ graph.edges.size = 4 ∧ graph.children.size = 1 ∧
      graph.variableCounts.values = [3] ∧ graph.AddsUp := by
  have found : ((noImports.serve stew).1.any (·.passes fun graph =>
      graph.edges.size == 4 && graph.children.size == 1 &&
        decide (graph.variableCounts.values = [3]))) = true := by
    decide +kernel
  obtain ⟨answer, held, passes⟩ := List.any_eq_true.1 found
  obtain ⟨graph, given, checked⟩ := Answer.exists_of_passes passes
  rw [Bool.and_eq_true, Bool.and_eq_true, beq_iff_eq, beq_iff_eq, decide_eq_true_iff] at checked
  obtain ⟨⟨edges, children⟩, counts⟩ := checked
  have adds := counts_add_up noImports stew answer held graph given graph .self
  exact ⟨answer, held, graph, given, .self, edges, children, counts, adds⟩

end Bundled

end RecipeGraph
