/-
# Dumps of compiled graphs

A dump is not made to be read back, and yet nothing it shows is lost. Whatever was compiled, from
whichever recipes and in whichever sessions: levels with equal dumps have the same nodes, edges,
styles and bindings in the same order, with the same names and styles, and so on in the levels
nested in them. What a dump does not show are identifiers and variables.
-/

import RecipeGraph.Proofs.Graph.Lines
import RecipeGraph.Proofs.Session.Names

namespace RecipeGraph.Bundled

/-- Two levels that were compiled, be it in one session or in two, have equal dumps exactly if they
look alike. -/
theorem dump_unambiguous (bundled bundled' : Bundled) {requests requests' : List Request}
    (named : ∀ request ∈ requests, request.Named) (named' : ∀ request ∈ requests', request.Named) :
    ∀ answer ∈ (bundled.serve requests).1, ∀ answer' ∈ (bundled'.serve requests').1,
      ∀ graph graph', answer.result = .ok graph → answer'.result = .ok graph' →
        ∀ level level', graph.HasLevel level → graph'.HasLevel level' →
          (level.dump = level'.dump ↔ level.appearance = level'.appearance) := by
  intro answer held answer' held' graph graph' given given' level level' has has'
  have whole := bundled.serve_named named answer held graph given
  have whole' := bundled'.serve_named named' answer' held' graph' given'
  exact Dag.dump_eq_iff_appearance (fun inner deeper => whole inner (has.trans deeper))
    fun inner deeper => whole' inner (has'.trans deeper)

/-- A property that holds a quote, brackets and a comma, and a level with a description of two
lines. -/
def galley : List Request :=
  [⟨.strict ("w = water(); boil(w)\x7b#hot; note: '\"\x7d, \x7b'\x7d; #hot\x7bcolor: 'red'\x7d; " ++
    "%default\x7b#hot\x7d; dough[mill()](w)\x7b'a'; 'b'\x7d"), 1⟩]

/-- The same in another order, with one more variable and with a comment. -/
def scullery : List Request :=
  [⟨.strict ("%default\x7b#hot\x7d; #hot\x7bcolor: 'red'\x7d; x = water(); w = x /* cold */; " ++
    "boil(w)\x7bnote: '\"\x7d, \x7b'; #hot\x7d; dough[m = mill()](w)\x7b'a'; 'b'\x7d"), 1⟩]

theorem dump_unambiguous_of_galley :
    ∃ answer ∈ (noImports.serve galley).1, ∃ answer' ∈ (noImports.serve scullery).1,
      ∃ graph graph' : Dag, answer.result = .ok graph ∧ answer'.result = .ok graph' ∧
        graph.variableIds.keys ≠ graph'.variableIds.keys ∧ graph.dump = graph'.dump ∧
        graph.appearance = graph'.appearance := by
  have found : ((noImports.serve galley).1.any (·.passes fun graph =>
      (noImports.serve scullery).1.any (·.passes fun graph' =>
        decide (graph.variableIds.keys ≠ graph'.variableIds.keys) &&
          decide (graph.dump = graph'.dump)))) = true := by
    decide +kernel
  obtain ⟨answer, held, passes⟩ := List.any_eq_true.1 found
  obtain ⟨graph, given, found'⟩ := Answer.exists_of_passes passes
  obtain ⟨answer', held', passes'⟩ := List.any_eq_true.1 found'
  obtain ⟨graph', given', checked⟩ := Answer.exists_of_passes passes'
  obtain ⟨apart, same⟩ := Bool.and_eq_true_iff.1 checked
  have dumps := of_decide_eq_true same
  have named : ∀ request ∈ galley ++ scullery, request.Named := by
    intro request listed recipe task
    rcases List.mem_pair.1 listed with rfl | rfl <;> cases task
  have told := dump_unambiguous noImports noImports
    (fun request listed => named request (List.mem_append_left _ listed))
    (fun request listed => named request (List.mem_append_right _ listed))
    answer held answer' held' graph graph' given given' graph graph' .self .self
  exact ⟨answer, held, answer', held', graph, graph', given, given', of_decide_eq_true apart, dumps,
    told.1 dumps⟩

end RecipeGraph.Bundled
