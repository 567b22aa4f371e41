/-
# Every level of every compiled graph

Whatever is compiled in whatever session, with whichever resolver, each level of each graph that
comes out of it is well formed and without circles. The soundness of sessions says so of the levels,
and on a sound level the search for an order of the elements succeeds.
-/

import RecipeGraph.Proofs.Graph.Topology
import RecipeGraph.Proofs.Session.Soundness

namespace RecipeGraph

/-- A caching resolver for one recipe, in which one call stands inside another. -/
def Bundled.sample : Bundled :=
  .caching (.ofTable (.ofList [("a", "x = f(g())")]))

/-- A session in which that recipe is imported. -/
def Request.sample : List Request :=
  [⟨.strict "s @ 'a'", 4⟩]

private theorem sample_nests :
    ∃ answer ∈ (Bundled.sample.serve Request.sample).1, ∃ graph : Dag,
      answer.result = .ok graph ∧ ∃ level ∈ graph.children.values, level.edges.size = 1 := by
  have found : ((Bundled.sample.serve Request.sample).1.any (·.passes fun graph =>
      graph.children.values.any fun level => level.edges.size == 1)) = true := by
    decide +kernel
  obtain ⟨answer, held, passes⟩ := List.any_eq_true.1 found
  obtain ⟨graph, given, checked⟩ := Answer.exists_of_passes passes
  obtain ⟨level, nested, size⟩ := List.any_eq_true.1 checked
  exact ⟨answer, held, graph, given, level, nested, of_decide_eq_true size⟩

namespace Bundled

/-- Every level of every compiled graph is well formed. No edge is ever refused: a refused edge is
reported among the diagnostics of the recipe, and in the log also if the recipe is imported, but
neither holds such a report. -/
theorem levels_wellFormed (bundled : Bundled) (requests : List Request) :
    (∀ answer ∈ (bundled.serve requests).1,
      (∀ graph, answer.result = .ok graph → ∀ level, graph.HasLevel level → level.WellFormed) ∧
        ∀ diagnostic ∈ answer.findings, diagnostic.code ≠ some .malformedEdge) ∧
      ∀ message ∈ (bundled.serve requests).2.log, ∀ reason : DagError,
        message ≠ reason.message := by
  obtain ⟨answers, session⟩ := bundled.serve_sound requests
  refine ⟨fun answer held => ⟨?_, (answers answer held).quiet⟩, fun message held => ?_⟩
  · intro graph given level has
    exact ((answers answer held).whole graph given level has).toWellFormed
  · exact (session.silent message held).resolve_left List.not_mem_nil

theorem levels_wellFormed_of_sample :
    ∃ answer ∈ (sample.serve Request.sample).1, ∃ graph level : Dag, answer.result = .ok graph ∧
      graph.HasLevel level ∧ level.edges.size = 1 ∧ level.WellFormed := by
  obtain ⟨answer, held, graph, given, level, nested, size⟩ := sample_nests
  have has : graph.HasLevel level := .inside nested .self
  have wellFormed := (levels_wellFormed sample Request.sample).1 answer held
  exact ⟨answer, held, graph, level, given, has, size, wellFormed.1 graph given level has⟩

/-- On every level of every compiled graph the edges run in no circle, and the order of the elements
that is computed has every node and every level nested there once, with all edges pointing
forward. -/
theorem levels_ordered (bundled : Bundled) (requests : List Request) :
    ∀ answer ∈ (bundled.serve requests).1, ∀ graph, answer.result = .ok graph →
      ∀ level, graph.HasLevel level →
        Acyclic level.Feeds ∧
          ∃ order, level.topologicalOrder = .ok order ∧ level.OrdersElements order := by
  intro answer held graph given level has
  have sound := (bundled.serve_sound requests).1 answer held
  have here := sound.whole graph given level has
  exact ⟨here.acyclic, Dag.topologicalOrder_ok here⟩

theorem levels_ordered_of_sample :
    ∃ answer ∈ (sample.serve Request.sample).1, ∃ graph level : Dag, answer.result = .ok graph ∧
      graph.HasLevel level ∧ level.edges.size = 1 ∧
      ∃ order, level.topologicalOrder = .ok order ∧ level.OrdersElements order := by
  obtain ⟨answer, held, graph, given, level, nested, size⟩ := sample_nests
  have has : graph.HasLevel level := .inside nested .self
  have ordered := levels_ordered sample Request.sample answer held graph given level has
  exact ⟨answer, held, graph, level, given, has, size, ordered.2⟩

end Bundled

end RecipeGraph
