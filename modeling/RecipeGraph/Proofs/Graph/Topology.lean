/-
# The search finds an order or a circle

A depth-first search leaves a vertex when everything that it leads to has been met. What has been met
by then was left before, or it is still open, and whatever is open leads to the vertex at hand. So of
two vertices joined by an edge the wrong one can be left first only if there is a way back. This is
kept by every visit, on any graph, and it decides what the check of the candidate means: where the
check fails, the edge and the way back make a circle.

Hence the order that is computed is right, the vertex that is reported lies on a circle, and one or
the other happens as there are circles or not.
-/

import Mathlib.Data.List.Nodup
import RecipeGraph.Dag.Topology
import RecipeGraph.Proofs.Graph.Identity

namespace RecipeGraph.Dag

open Relation (TransGen)

namespace Search

variable {next before : Id → List Id} {all : List Id}

/-- There is a way along the edges from one vertex to another. -/
abbrev Leads (next : Id → List Id) : Id → Id → Prop :=
  TransGen fun one two => two ∈ next one

/-- The vertices left so far, the last one first. No vertex leads to itself, and whatever it leads to
stands behind it, or there is a way back. -/
def Traced (next : Id → List Id) : List Id → Prop
  | [] => True
  | id :: rest =>
    id ∉ next id ∧ (∀ other ∈ next id, other ∈ rest ∨ Leads next other id) ∧ Traced next rest

/-- A search in which the vertices of `open_` are met but not finished: no vertex is lost, and the
finished ones are traced. -/
structure Valid (next : Id → List Id) (all open_ : List Id) (state : Search) : Prop where
  parts : (state.unseen ++ open_ ++ state.finished).Perm all
  traced : Traced next state.finished

/-- What visiting some vertices comes to: they have been met, and what was met before still is. -/
structure Visited (before : Search) (ids : List Id) (after : Search) : Prop where
  met : ∀ id ∈ ids, id ∉ after.unseen
  fewer : after.unseen.Sublist before.unseen

/-- The graph that is searched: no edge leads out of it, and its vertices are listed once. -/
structure Searchable (next : Id → List Id) (all : List Id) : Prop where
  closed : ∀ id ∈ all, ∀ other ∈ next id, other ∈ all
  distinct : all.Nodup

/-- What a search may come to: it has found a vertex that leads to itself, or it goes on from a valid
state in which the vertices have been visited. -/
def Explores (next : Id → List Id) (all open_ : List Id) (before : Search) (ids : List Id) :
    Except Id Search → Prop
  | .error loop => loop ∈ all ∧ loop ∈ next loop
  | .ok after => Valid next all open_ after ∧ Visited before ids after

section Visiting

variable {open_ : List Id} {state : Search} {id : Id}

theorem length_meet (unseen : id ∈ state.unseen) :
    (state.meet id).unseen.length + 1 = state.unseen.length := by
  have := List.length_erase_of_mem unseen
  have := List.length_pos_of_mem unseen
  simp only [Search.meet]
  omega

/-- Whatever leads to a vertex leads to what the vertex leads to. -/
theorem Searchable.successor (searchable : Searchable next all) (inside : id ∈ all)
    (led : ∀ other ∈ open_, Leads next other id) {other : Id} (edge : other ∈ next id) :
    other ∈ all ∧ ∀ waiting ∈ id :: open_, Leads next waiting other :=
  ⟨searchable.closed id inside other edge, List.forall_mem_cons.2
    ⟨.single edge, fun waiting held => (led waiting held).tail edge⟩⟩

/-- A search goes on where another one has come to, if that one has not ended. -/
theorem Explores.bind {open' ids ids' : List Id} {state' : Search} {outcome : Except Id Search}
    {go : Search → Except Id Search} (first : Explores next all open' state' ids' outcome)
    (goesOn : ∀ middle, Valid next all open' middle → Visited state' ids' middle →
      Explores next all open_ state ids (go middle)) :
    Explores next all open_ state ids (outcome >>= go) := by
  cases outcome with
  | error loop => exact first
  | ok middle => exact goesOn middle first.1 first.2

theorem Valid.meet (valid : Valid next all open_ state) (unseen : id ∈ state.unseen) :
    Valid next all (id :: open_) (state.meet id) := by
  refine ⟨?_, valid.traced⟩
  have moved : (state.unseen.erase id ++ id :: open_).Perm (state.unseen ++ open_) :=
    List.perm_middle.trans ((List.perm_cons_erase unseen).symm.append_right open_)
  exact (moved.append_right _).trans valid.parts

/-- An open vertex has been met and is not finished. -/
theorem Valid.of_open (valid : Valid next all open_ state) (searchable : Searchable next all)
    (waiting : id ∈ open_) : id ∉ state.unseen ∧ id ∉ state.finished := by
  obtain ⟨early, _, apart⟩ := List.nodup_append.1 (valid.parts.nodup_iff.2 searchable.distinct)
  exact ⟨fun unseen => (List.nodup_append.1 early).2.2 id unseen id waiting rfl,
    fun finished => apart id (List.mem_append_right _ waiting) id finished rfl⟩

/-- A vertex that has been met, but is not open, is finished. -/
theorem Valid.finished_of_met (valid : Valid next all open_ state) (inside : id ∈ all)
    (met : id ∉ state.unseen) (closed : id ∉ open_) : id ∈ state.finished := by
  rcases List.mem_append.1 (valid.parts.mem_iff.2 inside) with early | finished
  · exact ((List.mem_append.1 early).elim met closed).elim
  · exact finished

/-- A vertex may be left as soon as everything that it leads to has been met. What is open by then
leads back to it. -/
theorem Valid.finish (valid : Valid next all (id :: open_) state) (searchable : Searchable next all)
    (inside : id ∈ all) (led : ∀ other ∈ open_, Leads next other id) (noLoop : id ∉ next id)
    (met : ∀ other ∈ next id, other ∉ state.unseen) :
    Valid next all open_ (state.finish id) := by
  refine ⟨?_, noLoop, fun other edge => ?_, valid.traced⟩
  · have moved : (state.unseen ++ open_ ++ id :: state.finished).Perm
        (state.unseen ++ id :: open_ ++ state.finished) :=
      List.perm_middle.trans (List.perm_middle.symm.append_right _)
    exact moved.trans valid.parts
  · by_cases waiting : other ∈ open_
    · exact .inr (led other waiting)
    · refine .inl (valid.finished_of_met (searchable.closed id inside other edge) (met other edge) ?_)
      rintro (_ | ⟨_, further⟩)
      · exact noLoop edge
      · exact waiting further

/-- Visiting vertices one after the other is a search if visiting any one of them is. -/
theorem explores_of_visit (depth : Nat) (ids : List Id)
    (visit_one : ∀ id ∈ ids, ∀ state, Valid next all open_ state → state.unseen.length ≤ depth →
      Explores next all open_ state [id] (visit next depth state id))
    (valid : Valid next all open_ state) (bound : state.unseen.length ≤ depth) :
    Explores next all open_ state ids (ids.foldlM (visit next depth) state) := by
  induction ids generalizing state with
  | nil => exact ⟨valid, nofun, List.Sublist.refl _⟩
  | cons first rest step =>
      rw [List.foldlM_cons]
      have here := visit_one first List.mem_cons_self state valid bound
      refine here.bind fun middle valid' visited => ?_
      have later := step (fun id held => visit_one id (List.mem_cons_of_mem _ held)) valid'
        (Nat.le_trans visited.fewer.length_le bound)
      rw [← bind_pure (rest.foldlM (visit next depth) middle)]
      refine later.bind fun after valid'' visited' => ?_
      refine ⟨valid'', List.forall_mem_cons.2 ⟨fun unseen => ?_, visited'.met⟩,
        visited'.fewer.trans visited.fewer⟩
      exact visited.met first (List.mem_singleton.2 rfl) (visited'.fewer.subset unseen)

/-- A visit that has depth enough is a search. -/
theorem explores_visit (searchable : Searchable next all) (depth : Nat) {open_ : List Id} {id : Id}
    (inside : id ∈ all) (led : ∀ other ∈ open_, Leads next other id) (state : Search)
    (valid : Valid next all open_ state) (bound : state.unseen.length ≤ depth) :
    Explores next all open_ state [id] (visit next depth state id) := by
  induction depth generalizing open_ id state with
  | zero =>
      have nothing : state.unseen = [] := List.eq_nil_of_length_eq_zero (Nat.le_zero.1 bound)
      exact ⟨valid, by simp [nothing], List.Sublist.refl _⟩
  | succ depth step =>
      rw [visit]
      by_cases unseen : id ∈ state.unseen
      · rw [if_neg (not_not_intro unseen)]
        by_cases loop : id ∈ next id
        · rw [if_pos loop]
          exact ⟨inside, loop⟩
        · rw [if_neg loop]
          have fewer : (state.meet id).unseen.length ≤ depth := by
            have := length_meet unseen
            omega
          have below := explores_of_visit depth (next id).reverse
            (fun other held state valid bound => by
              obtain ⟨inside', led'⟩ := searchable.successor inside led (List.mem_reverse.1 held)
              exact step inside' led' state valid bound)
            (valid.meet unseen) fewer
          refine below.bind fun middle valid' visited => ?_
          refine ⟨valid'.finish searchable inside led loop fun other edge =>
            visited.met other (List.mem_reverse.2 edge), ?_, visited.fewer.trans List.erase_sublist⟩
          exact fun _ held => List.mem_singleton.1 held ▸
            (valid'.of_open searchable List.mem_cons_self).1
      · rw [if_pos unseen]
        exact ⟨valid, fun _ held => List.mem_singleton.1 held ▸ unseen, List.Sublist.refl _⟩

end Visiting

/-- A search over all vertices finds one that leads to itself, or finishes all of them. -/
theorem explores_visitAll (searchable : Searchable next all) :
    match visitAll next all with
    | .error loop => loop ∈ all ∧ loop ∈ next loop
    | .ok state => state.finished.Perm all ∧ Traced next state.finished := by
  have start : Valid next all [] ⟨all, []⟩ := ⟨by simp, trivial⟩
  have explored := explores_of_visit all.length all
    (fun id inside state valid bound => explores_visit searchable all.length inside
      (fun _ held => absurd held List.not_mem_nil) state valid bound)
    start (Nat.le_refl _)
  change Explores next all [] ⟨all, []⟩ all (visitAll next all) at explored
  generalize visitAll next all = outcome at explored
  cases outcome with
  | error loop => exact explored
  | ok state =>
      obtain ⟨valid, met, fewer⟩ := explored
      have parts := valid.parts
      have nothing : state.unseen = [] := List.eq_nil_iff_forall_not_mem.2 fun id unseen =>
        met id (fewer.subset unseen) unseen
      rw [nothing] at parts
      exact ⟨parts, valid.traced⟩

/-! ### Checking the candidate -/

/-- In a traced list everything a vertex leads to stands behind it, or there is a way back. -/
theorem Traced.behind {first rest : List Id} {id other : Id}
    (traced : Traced next (first ++ id :: rest)) (edge : other ∈ next id) :
    other ∈ rest ∨ Leads next other id := by
  induction first with
  | nil => exact traced.2.1 other edge
  | cons _ _ step => exact step traced.2.2

theorem Traced.noLoop {finished : List Id} (traced : Traced next finished) {id : Id}
    (held : id ∈ finished) : id ∉ next id := by
  induction finished with
  | nil => cases held
  | cons first rest step =>
      rcases List.mem_cons.1 held with rfl | later
      · exact traced.1
      · exact step traced.2.2 later

/-- Where the check passes, whatever feeds a vertex stands before it, unless it is the vertex
itself. -/
theorem checkOrder_ok {placed rest : List Id} (passed : checkOrder before placed rest = .ok ())
    {first last : List Id} {id : Id} (here : rest = first ++ id :: last) :
    ∀ feeder ∈ before id, feeder = id ∨ feeder ∈ first ++ placed := by
  induction rest generalizing placed first with
  | nil => cases first <;> cases here
  | cons head rest step =>
      rw [checkOrder] at passed
      split at passed
      · cases passed
      · next early =>
          have early := List.getLast?_eq_none_iff.1 early
          cases first with
          | nil =>
              cases here
              intro feeder held
              have found := List.filter_eq_nil_iff.1 early feeder held
              exact List.mem_cons.1 (Decidable.not_not.1 fun apart => found (decide_eq_true apart))
          | cons _ first =>
              obtain ⟨rfl, rfl⟩ := List.cons.inj here
              intro feeder held
              have later := step passed rfl feeder held
              simpa [or_assoc, or_left_comm] using later

/-- Where the check fails, the vertex that it reports feeds one that stands before it. -/
theorem checkOrder_error {placed rest : List Id} {feeder : Id}
    (failed : checkOrder before placed rest = .error feeder) :
    ∃ first id last, rest = first ++ id :: last ∧ feeder ∈ before id ∧
      feeder ≠ id ∧ feeder ∉ first ++ placed := by
  induction rest generalizing placed with
  | nil => cases failed
  | cons head rest step =>
      rw [checkOrder] at failed
      split at failed
      · next late =>
          cases failed
          obtain ⟨held, apart⟩ := List.mem_filter.1 (List.mem_of_getLast? late)
          have apart : feeder ∉ head :: placed := of_decide_eq_true apart
          exact ⟨[], head, rest, rfl, held, fun same => apart (same ▸ List.mem_cons_self),
            fun old => apart (List.mem_cons_of_mem _ old)⟩
      · obtain ⟨first, id, last, rfl, held, ne, apart⟩ := step failed
        refine ⟨head :: first, id, last, rfl, held, ne, fun early => apart ?_⟩
        simpa [or_assoc, or_left_comm] using early

/-- A vertex that the check reports lies on a circle: the edge from it leads to a vertex from which
there is a way back. -/
theorem Traced.circle {finished : List Id} (traced : Traced next finished)
    (distinct : finished.Nodup) (feeds : ∀ id, ∀ feeder ∈ before id,
      feeder ∈ finished ∧ id ∈ next feeder) {feeder : Id}
    (failed : checkOrder before [] finished = .error feeder) :
    feeder ∈ finished ∧ Leads next feeder feeder := by
  obtain ⟨first, id, last, rfl, held, ne, apart⟩ := checkOrder_error failed
  obtain ⟨inside, edge⟩ := feeds id feeder held
  refine ⟨inside, ?_⟩
  rcases List.mem_append.1 inside with early | late
  · exact absurd (List.mem_append_left _ early) apart
  · obtain ⟨middle, end_, rfl⟩ := List.append_of_mem ((List.mem_cons.1 late).resolve_left ne)
    have again : first ++ id :: (middle ++ feeder :: end_) =
        (first ++ id :: middle) ++ feeder :: end_ := by
      simp
    rcases (again ▸ traced).behind edge with behind | back
    · have once := (List.nodup_cons.1 (List.nodup_append.1 distinct).2.1).1
      exact absurd (List.mem_append_right _ (List.mem_cons_of_mem _ behind)) once
    · exact .head edge back

end Search

/-! ### Levels as graphs to search -/

private theorem mem_members {values : List Id} {id : Id} :
    id ∈ (OrderedSet.empty.insertAll values).members ↔ id ∈ values := by
  rw [OrderedSet.mem_insertAll]
  exact or_iff_left (List.not_mem_nil)

/-- The successors of a vertex are where the edges from it lead. -/
theorem mem_successors {dag : Dag} {source target : Id} :
    target ∈ dag.successors source ↔ dag.Feeds source target := by
  rw [successors, mem_members, List.mem_map]
  constructor
  · rintro ⟨edge, held, rfl⟩
    obtain ⟨inside, same⟩ := List.mem_filter.1 held
    exact ⟨edge, inside, of_decide_eq_true same, rfl⟩
  · rintro ⟨edge, inside, rfl, rfl⟩
    exact ⟨edge, List.mem_filter.2 ⟨inside, decide_eq_true rfl⟩, rfl⟩

theorem mem_predecessors {dag : Dag} {source target : Id} :
    source ∈ dag.predecessors target ↔ dag.Feeds source target := by
  rw [predecessors, mem_members, List.mem_map]
  constructor
  · rintro ⟨edge, held, rfl⟩
    obtain ⟨inside, same⟩ := List.mem_filter.1 held
    exact ⟨edge, inside, rfl, of_decide_eq_true same⟩
  · rintro ⟨edge, inside, rfl, rfl⟩
    exact ⟨edge, List.mem_filter.2 ⟨inside, decide_eq_true rfl⟩, rfl⟩

/-- The vertices are the elements, and whatever else the edges mention. -/
theorem mem_vertices {dag : Dag} {id : Id} :
    id ∈ dag.vertices ↔
      id ∈ dag.elements ∨ ∃ edge ∈ dag.edges.values, id = edge.source ∨ id = edge.target := by
  rw [vertices, OrderedSet.mem_insertAll, OrderedSet.mem_insertAll, mem_members, List.mem_flatMap,
    mem_elements]
  simp only [List.mem_cons, List.not_mem_nil, or_false]
  rw [or_comm, @or_comm (id ∈ dag.children.keys)]

theorem vertices_nodup (dag : Dag) : dag.vertices.Nodup :=
  have nothing : (OrderedSet.empty : OrderedSet Id).Distinct := List.nodup_nil
  ((nothing.insertAll _).insertAll _).insertAll _

/-- No edge leads out of the vertices of a level. -/
theorem searchable (dag : Dag) : Search.Searchable dag.successors dag.vertices where
  closed := by
    intro id _ other leads
    obtain ⟨edge, held, _, rfl⟩ := mem_successors.1 leads
    exact mem_vertices.2 (.inr ⟨edge, held, .inr rfl⟩)
  distinct := dag.vertices_nodup

/-- What flows into a vertex flows from a vertex. -/
theorem mem_of_predecessor {dag : Dag} {id feeder : Id} (held : feeder ∈ dag.predecessors id) :
    feeder ∈ dag.vertices ∧ id ∈ dag.successors feeder := by
  obtain ⟨edge, inside, rfl, rfl⟩ := mem_predecessors.1 held
  exact ⟨mem_vertices.2 (.inr ⟨edge, inside, .inl rfl⟩), mem_successors.2 ⟨edge, inside, rfl, rfl⟩⟩

theorem leads_iff {dag : Dag} {one two : Id} :
    Search.Leads dag.successors one two ↔ TransGen dag.Feeds one two := by
  have same : (fun one two => two ∈ dag.successors one) = dag.Feeds := by
    funext one two
    exact propext mem_successors
  rw [Search.Leads, same]

/-! ### What the order comes to -/

/-- An order of the elements of a level: each of them once, and every edge points forward. -/
structure OrdersElements (dag : Dag) (order : List Id) : Prop where
  distinct : order.Nodup
  complete : ∀ id, id ∈ order ↔ id ∈ dag.elements
  forward : ∀ edge ∈ dag.edges.values, order.idxOf edge.source < order.idxOf edge.target

/-- Where there is an order, the edges run in no circle. -/
theorem OrdersElements.acyclic {dag : Dag} {order : List Id} (orders : dag.OrdersElements order) :
    Acyclic dag.Feeds := by
  have forward : ∀ {one two}, TransGen dag.Feeds one two → order.idxOf one < order.idxOf two := by
    intro one two way
    induction way with
    | single step =>
        obtain ⟨edge, held, rfl, rfl⟩ := step
        exact orders.forward edge held
    | tail _ step before =>
        obtain ⟨edge, held, rfl, rfl⟩ := step
        exact Nat.lt_trans before (orders.forward edge held)
  exact fun here circle => Nat.lt_irrefl _ (forward circle)

section Exact

variable {dag : Dag}

variable (joined : ∀ edge ∈ dag.edges.values,
  edge.source ∈ dag.elements ∧ edge.target ∈ dag.elements)

include joined

/-- Where edges run between elements, the elements are all the vertices. -/
theorem mem_vertices_iff_mem_elements {id : Id} : id ∈ dag.vertices ↔ id ∈ dag.elements := by
  rw [mem_vertices]
  refine or_iff_left_of_imp ?_
  rintro ⟨edge, held, rfl | rfl⟩
  · exact (joined edge held).1
  · exact (joined edge held).2

/-- The order that is given is one. -/
theorem ordersElements_of_ok {order : List Id} (given : dag.topologicalOrder = .ok order) :
    dag.OrdersElements order := by
  have explored := Search.explores_visitAll dag.searchable
  rw [topologicalOrder] at given
  cases visited : Search.visitAll dag.successors dag.vertices with
  | error loop => rw [visited] at given; cases given
  | ok state =>
      rw [visited] at given explored
      obtain ⟨listed, traced⟩ := explored
      dsimp only at given
      cases checked : checkOrder dag.predecessors [] state.finished with
      | error feeder => rw [checked] at given; cases given
      | ok =>
          rw [checked] at given
          cases given
          have distinct := listed.nodup_iff.2 dag.vertices_nodup
          refine ⟨distinct, fun id => listed.mem_iff.trans (mem_vertices_iff_mem_elements joined),
            fun edge held => ?_⟩
          have target : edge.target ∈ state.finished :=
            listed.mem_iff.2 (mem_vertices.2 (.inr ⟨edge, held, .inr rfl⟩))
          obtain ⟨first, last, same⟩ := List.append_of_mem target
          have noLoop := traced.noLoop target
          have early := Search.checkOrder_ok checked same edge.source
            (mem_predecessors.2 ⟨edge, held, rfl, rfl⟩)
          rw [List.append_nil] at early
          have source : edge.source ∈ first := early.resolve_left fun loop =>
            noLoop (mem_successors.2 ⟨edge, held, loop, rfl⟩)
          rw [same] at distinct ⊢
          have late : edge.target ∉ first := fun held =>
            (List.nodup_append.1 distinct).2.2 _ held _ List.mem_cons_self rfl
          rw [List.idxOf_append_of_mem source, List.idxOf_append_of_notMem late]
          have := List.idxOf_lt_length_of_mem source
          omega

/-- The element that is reported lies on a circle. -/
theorem circle_of_error {failure : DagError} (given : dag.topologicalOrder = .error failure) :
    ∃ element ∈ dag.elements, failure = .cycle dag.name element ∧
      TransGen dag.Feeds element element := by
  have explored := Search.explores_visitAll dag.searchable
  rw [topologicalOrder] at given
  cases visited : Search.visitAll dag.successors dag.vertices with
  | error loop =>
      rw [visited] at given explored
      cases given
      exact ⟨loop, (mem_vertices_iff_mem_elements joined).1 explored.1, rfl,
        .single (mem_successors.1 explored.2)⟩
  | ok state =>
      rw [visited] at given explored
      obtain ⟨listed, traced⟩ := explored
      dsimp only at given
      cases checked : checkOrder dag.predecessors [] state.finished with
      | ok => rw [checked] at given; cases given
      | error feeder =>
          rw [checked] at given
          cases given
          obtain ⟨inside, circle⟩ := traced.circle (listed.nodup_iff.2 dag.vertices_nodup)
            (fun id feeder held => (mem_of_predecessor held).imp_left listed.mem_iff.2) checked
          exact ⟨feeder, (mem_vertices_iff_mem_elements joined).1 (listed.mem_iff.1 inside), rfl,
            leads_iff.1 circle⟩

/-- There is an order exactly if there is no circle. -/
theorem topologicalOrder_ok_iff :
    (∃ order, dag.topologicalOrder = .ok order) ↔ Acyclic dag.Feeds := by
  constructor
  · rintro ⟨order, given⟩
    exact (ordersElements_of_ok joined given).acyclic
  · intro acyclic
    cases given : dag.topologicalOrder with
    | ok order => exact ⟨order, rfl⟩
    | error failure =>
        obtain ⟨element, _, _, circle⟩ := circle_of_error joined given
        exact absurd circle (acyclic element)

end Exact

/-- On a sound level the search finds an order. -/
theorem topologicalOrder_ok {dag : Dag} (sound : dag.Sound) :
    ∃ order, dag.topologicalOrder = .ok order ∧ dag.OrdersElements order := by
  obtain ⟨order, given⟩ := (topologicalOrder_ok_iff sound.edges_between).2 sound.acyclic
  exact ⟨order, given, ordersElements_of_ok sound.edges_between given⟩

end RecipeGraph.Dag
