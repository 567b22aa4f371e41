/-
# How the look-ups agree

Variables, the styles of variables, flattened styles and the sources of edges are looked up one by
one, and each look-up walks a path by itself. They agree all the same. A path of variables leads to a
level by all its segments but the last one, and what flows from it is the nested level that the walk
begins with. On the level that is reached, a variable that has a style stands for an element there.

Styles are different in that every level first tries what is left of the path as a single name. In
compiled graphs that never succeeds, since the names of styles have no dots.
-/

import RecipeGraph.Proofs.Session.Names
import RecipeGraph.Proofs.Session.StyleNames

namespace RecipeGraph

namespace Dag

/-- The level that segments lead to, one nested level after the other. -/
def walk? : List String → Dag → Option Dag
  | [], dag => some dag
  | segment :: rest, dag => (dag.childFor? segment).bind (walk? rest)

/-- Whoever walks stays in the graph. -/
theorem hasLevel_of_walk? : ∀ {segments : List String} {dag reached : Dag},
    walk? segments dag = some reached → dag.HasLevel reached
  | [], _, _, found => Option.some.inj found ▸ .self
  | _ :: _, _, _, found => by
      obtain ⟨child, selected, deeper⟩ := Option.bind_eq_some_iff.1 found
      exact .inside (childFor?_mem selected) (hasLevel_of_walk? deeper)
termination_by segments => segments

/-- A variable is looked up on the level that the other segments of its path lead to. -/
theorem variableAt?_eq_walk? : ∀ (segments : List String) (dag : Dag),
    variableAt? segments dag = (walk? segments.dropLast dag).bind fun reached =>
      segments.getLast?.bind reached.variableIds.get?
  | [], _ => rfl
  | [_], _ => rfl
  | segment :: next :: rest, dag => by
      show (dag.childFor? segment).bind (variableAt? (next :: rest)) =
        ((dag.childFor? segment).bind (walk? (next :: rest).dropLast)).bind _
      rw [Option.bind_assoc, List.getLast?_cons_cons]
      exact Option.bind_congr fun child _ => variableAt?_eq_walk? (next :: rest) child
termination_by segments => segments

theorem variableStyleAt?_eq_walk? : ∀ (segments : List String) (dag : Dag),
    variableStyleAt? segments dag = (walk? segments.dropLast dag).bind fun reached =>
      segments.getLast?.bind fun name => (reached.variableStyles.get? name).join
  | [], _ => rfl
  | [_], _ => rfl
  | segment :: next :: rest, dag => by
      show (dag.childFor? segment).bind (variableStyleAt? (next :: rest)) =
        ((dag.childFor? segment).bind (walk? (next :: rest).dropLast)).bind _
      rw [Option.bind_assoc, List.getLast?_cons_cons]
      exact Option.bind_congr fun child _ => variableStyleAt?_eq_walk? (next :: rest) child
termination_by segments => segments

/-- Something flows from exactly the paths that lead to a variable. -/
theorem isSome_producer? (dag : Dag) (path : QualifiedPath) :
    (dag.producer? path).isSome = (dag.element? path).isSome := by
  obtain ⟨_ | ⟨segment, _ | ⟨next, rest⟩⟩⟩ := path
  · rfl
  · rfl
  · have element : dag.element? ⟨segment :: next :: rest⟩ =
        (dag.childFor? segment).bind (variableAt? (next :: rest)) := rfl
    unfold producer?
    dsimp only
    rw [element]
    cases dag.childFor? segment with
    | none => rfl
    | some child => exact Option.isSome_map

/-- What flows from a longer path is the level that its first segment selects, and the rest of the
path leads to a variable there. -/
theorem producer?_cons {dag : Dag} {segment next : String} {rest : List String} {id : Id}
    (found : dag.producer? ⟨segment :: next :: rest⟩ = some id) :
    ∃ child ∈ dag.children.values, dag.childFor? segment = some child ∧ id = child.id ∧
      dag.element? ⟨segment :: next :: rest⟩ = child.element? ⟨next :: rest⟩ := by
  unfold producer? at found
  dsimp only at found
  cases selected : dag.childFor? segment with
  | none =>
      rw [selected] at found
      cases found
  | some child =>
      rw [selected] at found
      obtain ⟨_, _, rfl⟩ := Option.map_eq_some_iff.1 found
      refine ⟨child, childFor?_mem selected, rfl, rfl, ?_⟩
      show (dag.childFor? segment).bind _ = _
      rw [selected]
      rfl

namespace SoundThroughout

variable {dag : Dag} {path : QualifiedPath}

/-- A variable stands for an element of the level that the other segments lead to. -/
theorem element?_reached (sound : dag.SoundThroughout) {id : Id} (found : dag.element? path = some id) :
    ∃ reached, walk? path.segments.dropLast dag = some reached ∧ id ∈ reached.elements := by
  rw [element?, variableAt?_eq_walk?] at found
  obtain ⟨reached, walked, last⟩ := Option.bind_eq_some_iff.1 found
  obtain ⟨name, _, bound⟩ := Option.bind_eq_some_iff.1 last
  exact ⟨reached, walked, (sound reached (hasLevel_of_walk? walked)).variables_bound id
    (OrderedMap.mem_values_of_get? bound)⟩

/-- Styles are kept for variables only. -/
theorem isSome_element?_of_variableStyle? (sound : dag.SoundThroughout)
    (styled : (dag.variableStyle? path).isSome = true) : (dag.element? path).isSome = true := by
  obtain ⟨style, found⟩ := Option.isSome_iff_exists.1 styled
  rw [variableStyle?, variableStyleAt?_eq_walk?] at found
  obtain ⟨reached, walked, last⟩ := Option.bind_eq_some_iff.1 found
  obtain ⟨name, named, kept⟩ := Option.bind_eq_some_iff.1 last
  have listed : name ∈ reached.variableStyles.keys :=
    List.mem_map_of_mem (OrderedMap.mem_of_get? (Option.join_eq_some_iff.1 kept))
  rw [← (sound reached (hasLevel_of_walk? walked)).names_shared] at listed
  obtain ⟨id, bound⟩ := OrderedMap.exists_get?_of_mem_keys listed
  rw [element?, variableAt?_eq_walk?, walked, named, Option.bind_some, Option.bind_some, bound]
  rfl

end SoundThroughout

/-- A path of several segments is not the name of a style, so its first segment selects the level
where the rest is looked up. -/
theorem Named.style?_cons {dag : Dag} (named : dag.Named) (segment next : String)
    (rest : List String) :
    dag.styles.get? (QualifiedPath.joinSegments (segment :: next :: rest)) = none ∧
      dag.style? ⟨segment :: next :: rest⟩ =
        (dag.childFor? segment).bind (·.style? ⟨next :: rest⟩) := by
  have absent : dag.styles.get? (QualifiedPath.joinSegments (segment :: next :: rest)) = none :=
    OrderedMap.get?_eq_none fun held =>
      QualifiedPath.not_undotted_join segment next rest (named.styles _ held).undotted
  refine ⟨absent, ?_⟩
  rw [style?, styleAt?, absent]
  rfl

end Dag

namespace Bundled

/-- The look-ups of paths agree. On any level, something flows from a path exactly if it leads to a
variable, and for a longer path that is the nested level in which the rest leads there. On the levels
of compiled graphs, a variable that has a style is one that stands for something, and that is an
element of the level that the path leads through last; a style under a longer path is the one under
the rest of it in the same nested level, and never one of the level itself. -/
theorem lookups_agree (bundled : Bundled) (requests : List Request) :
    (∀ (dag : Dag) (path : QualifiedPath),
      (dag.producer? path).isSome = (dag.element? path).isSome) ∧
    (∀ (dag : Dag) segment next rest id, dag.producer? ⟨segment :: next :: rest⟩ = some id →
      ∃ child ∈ dag.children.values, dag.childFor? segment = some child ∧ id = child.id ∧
        dag.element? ⟨segment :: next :: rest⟩ = child.element? ⟨next :: rest⟩) ∧
    ∀ answer ∈ (bundled.serve requests).1, ∀ graph, answer.result = .ok graph →
      ∀ level, graph.HasLevel level →
        (∀ path, (level.variableStyle? path).isSome = true → (level.element? path).isSome = true) ∧
        (∀ path id, level.element? path = some id →
          ∃ reached, Dag.walk? path.segments.dropLast level = some reached ∧
            id ∈ reached.elements) ∧
        ((∀ request ∈ requests, request.Named) → ∀ segment next rest,
          level.styles.get? (QualifiedPath.joinSegments (segment :: next :: rest)) = none ∧
            level.style? ⟨segment :: next :: rest⟩ =
              (level.childFor? segment).bind (·.style? ⟨next :: rest⟩)) := by
  refine ⟨Dag.isSome_producer?, fun _ _ _ _ _ => Dag.producer?_cons, ?_⟩
  intro answer held graph given level has
  have whole := ((bundled.serve_sound requests).1 answer held).whole graph given
  have sound : level.SoundThroughout := fun inner deeper => whole inner (has.trans deeper)
  refine ⟨fun _ => sound.isSome_element?_of_variableStyle?, fun _ _ => sound.element?_reached, ?_⟩
  intro named
  exact (bundled.serve_named named answer held graph given level has).style?_cons

/-- A nested level with a variable that has a style, and with a style of its own. -/
def pastry : List Request :=
  [⟨.strict "dough[flour\x7b#soft\x7d = mill()\n#soft\x7bcolor: 'white'\x7d]", 1⟩]

theorem lookups_agree_of_pastry :
    ∃ answer ∈ (noImports.serve pastry).1, ∃ graph : Dag, answer.result = .ok graph ∧
      ∃ id reached, graph.element? ⟨["dough", "flour"]⟩ = some id ∧
        Dag.walk? ["dough"] graph = some reached ∧ id ∈ reached.elements ∧
        (graph.producer? ⟨["dough", "flour"]⟩).isSome = true ∧
        (graph.variableStyle? ⟨["dough", "flour"]⟩).isSome = true ∧
        (graph.style? ⟨["dough", "soft"]⟩).isSome = true ∧
        graph.style? ⟨["dough", "soft"]⟩ = (graph.childFor? "dough").bind (·.style? ⟨["soft"]⟩) := by
  have found : ((noImports.serve pastry).1.any (·.passes fun graph =>
      (graph.variableStyle? ⟨["dough", "flour"]⟩).isSome &&
        (graph.style? ⟨["dough", "soft"]⟩).isSome)) = true := by
    decide +kernel
  obtain ⟨answer, held, passes⟩ := List.any_eq_true.1 found
  obtain ⟨graph, given, checked⟩ := Answer.exists_of_passes passes
  obtain ⟨styled, kept⟩ := Bool.and_eq_true_iff.1 checked
  have named : ∀ request ∈ pastry, request.Named := by
    intro request listed recipe same
    obtain rfl := List.mem_singleton.1 listed
    cases same
  obtain ⟨flows, _, compiled⟩ := lookups_agree noImports pastry
  obtain ⟨stands, reaches, styles⟩ := compiled answer held graph given graph .self
  have bound := stands _ styled
  obtain ⟨id, element⟩ := Option.isSome_iff_exists.1 bound
  obtain ⟨reached, walked, inside⟩ := reaches _ id element
  exact ⟨answer, held, graph, given, id, reached, element, walked, inside,
    (flows graph _).trans bound, styled, kept, (styles named "dough" "soft" []).2⟩

end Bundled

end RecipeGraph
