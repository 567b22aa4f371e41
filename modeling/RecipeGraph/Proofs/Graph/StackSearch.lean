/-
# The search with a stack

The same order may be computed without recursion. A search that keeps a stack of vertices pushes
what a vertex leads to when it first sees the vertex on top, and takes the vertex off when it sees it
there again; by then other copies of a vertex may lie further down. Afterwards a walk goes backwards
from each vertex in the order that was found, and the order is refused as soon as a walk comes to a
second vertex.

On every graph, with circles or without, this comes to what the recursive search and the check of its
candidate come to, the vertex that is reported included. So what is proved of the one holds of the
other.
-/

import RecipeGraph.Proofs.Graph.Consistent
import RecipeGraph.Proofs.Graph.Topology

namespace RecipeGraph.Dag

open Relation (TransGen)

namespace Search

/-! ### The first phase -/

/-- Goes on with a stack of vertices until it is empty. A vertex seen for the first time is met and
stays on the stack, below what it leads to and has not been met; one seen again is finished, unless
it is already. -/
def trail (next : Id → List Id) (state : Search) : (stack : List Id) → Except Id Search
  | [] => .ok state
  | id :: stack =>
    if id ∈ state.unseen then
      if id ∈ next id then
        .error id
      else
        trail next (state.meet id)
          (((next id).filter fun other => other ∈ (state.meet id).unseen).reverse ++ id :: stack)
    else if id ∈ state.finished then
      trail next state stack
    else
      trail next (state.finish id) stack
termination_by stack => (state.unseen.length, stack.length)
decreasing_by
  · next unseen _ =>
      exact .left _ _ (length_meet unseen ▸ Nat.lt_succ_self _)
  · exact .right _ (Nat.lt_succ_self _)
  · exact .right _ (Nat.lt_succ_self _)

/-- Starts a stack at every vertex that has not been met by then. -/
def trailAll (next : Id → List Id) (vertices : List Id) : Except Id Search :=
  vertices.foldlM (fun state id => if id ∈ state.unseen then trail next state [id] else .ok state)
    ⟨vertices, []⟩

/-! ### The second phase -/

/-- Walks backwards with a stack of vertices, and fails at the first new vertex if one has been
discovered on this walk already. Otherwise it gives the vertices discovered so far. -/
def walk (before : Id → List Id) (discovered : List Id) (moved : Bool) :
    (stack : List Id) → Except Id (List Id)
  | [] => .ok discovered
  | id :: stack =>
    if id ∈ discovered then
      walk before discovered moved stack
    else if moved then
      .error id
    else
      walk before (id :: discovered) true
        (((before id).filter fun feeder => feeder ∉ id :: discovered).reverse ++ stack)
termination_by stack => (if moved then 0 else 1, stack.length)
decreasing_by
  · exact .right _ (Nat.lt_succ_self _)
  · next fresh => exact .left _ _ (by simp [fresh])

/-- Walks backwards from one vertex after the other. -/
def walkAll (before : Id → List Id) (order : List Id) : Except Id (List Id) :=
  order.foldlM (fun discovered id => walk before discovered false [id]) []

end Search

/-- The order of the elements that the search with a stack comes to. -/
def stackOrder (dag : Dag) : Except DagError (List Id) :=
  match Search.trailAll dag.successors dag.vertices with
  | .error id => .error (.cycle dag.name id)
  | .ok state =>
    match Search.walkAll dag.predecessors state.finished with
    | .error id => .error (.cycle dag.name id)
    | .ok _ => .ok state.finished

/-! ### Both searches agree -/

namespace Search

variable {next before : Id → List Id} {all open_ : List Id} {state : Search} {id : Id}

theorem visit_of_met {depth : Nat} (met : id ∉ state.unseen) :
    visit next depth state id = .ok state := by
  cases depth with
  | zero => rfl
  | succ depth => rw [visit, if_pos met]

/-- What has been met already may be left out of the vertices to visit. -/
theorem foldlM_visit_filter (searchable : Searchable next all) {depth : Nat} {met ids : List Id}
    (visits : ∀ id ∈ ids, id ∈ all ∧ ∀ other ∈ open_, Leads next other id)
    (valid : Valid next all open_ state) (bound : state.unseen.length ≤ depth)
    (fewer : state.unseen ⊆ met) :
    (ids.filter fun id => id ∈ met).foldlM (visit next depth) state =
      ids.foldlM (visit next depth) state := by
  induction ids generalizing state with
  | nil => rfl
  | cons id rest step =>
      obtain ⟨here, later⟩ := List.forall_mem_cons.1 visits
      by_cases seen : id ∈ met
      · have kept : (id :: rest).filter (fun id => id ∈ met) =
            id :: rest.filter fun id => id ∈ met := List.filter_cons_of_pos (decide_eq_true seen)
        rw [kept, List.foldlM_cons, List.foldlM_cons]
        have explored := explores_visit searchable depth here.1 here.2 state valid bound
        cases visited : visit next depth state id with
        | error loop => rfl
        | ok middle =>
            rw [visited] at explored
            obtain ⟨valid', kept⟩ := explored
            exact step later valid' (Nat.le_trans kept.fewer.length_le bound)
              fun _ held => fewer (kept.fewer.subset held)
      · have dropped : (id :: rest).filter (fun id => id ∈ met) = rest.filter fun id => id ∈ met :=
          List.filter_cons_of_neg (by simpa using seen)
        rw [dropped, List.foldlM_cons, visit_of_met fun held => seen (fewer held)]
        exact step later valid bound fewer

/-- The upper part of a stack is worked off like visits, from the top downwards, if each vertex on it
is. -/
theorem trail_append (searchable : Searchable next all) (depth : Nat) (ids : List Id)
    (visits : ∀ id ∈ ids, id ∈ all ∧ ∀ other ∈ open_, Leads next other id)
    (one : ∀ id ∈ ids, ∀ state, Valid next all open_ state → state.unseen.length ≤ depth →
      ∀ stack, trail next state (id :: stack) =
        visit next depth state id >>= fun after => trail next after stack)
    (valid : Valid next all open_ state) (bound : state.unseen.length ≤ depth)
    (stack : List Id) :
    trail next state (ids ++ stack) =
      ids.foldlM (visit next depth) state >>= fun after => trail next after stack := by
  induction ids generalizing state with
  | nil => rfl
  | cons id rest step =>
      obtain ⟨here, later⟩ := List.forall_mem_cons.1 visits
      have explored := explores_visit searchable depth here.1 here.2 state valid bound
      rw [List.cons_append, one id List.mem_cons_self state valid bound, List.foldlM_cons]
      cases visited : visit next depth state id with
      | error loop => rfl
      | ok middle =>
          rw [visited] at explored
          obtain ⟨valid', kept⟩ := explored
          exact step later (fun id held => one id (List.mem_cons_of_mem _ held)) valid'
            (Nat.le_trans kept.fewer.length_le bound)

/-- A vertex on top of the stack that is not open is worked off like a visit. What it pushes is not
open either, and when it is on top again, it is the last one that was opened. -/
theorem trail_cons (searchable : Searchable next all) (depth : Nat) {open_ : List Id} {id : Id}
    (inside : id ∈ all) (closed : id ∉ open_) (led : ∀ other ∈ open_, Leads next other id)
    (state : Search) (valid : Valid next all open_ state) (bound : state.unseen.length ≤ depth)
    (stack : List Id) :
    trail next state (id :: stack) =
      visit next depth state id >>= fun after => trail next after stack := by
  induction depth generalizing open_ id state stack with
  | zero =>
      have nothing : state.unseen = [] := List.eq_nil_of_length_eq_zero (Nat.le_zero.1 bound)
      have absent : id ∉ state.unseen := by simp [nothing]
      rw [trail, if_neg absent, if_pos (valid.finished_of_met inside absent closed), visit_of_met absent]
      rfl
  | succ depth step =>
      by_cases unseen : id ∈ state.unseen
      · rw [trail, if_pos unseen, visit, if_neg (not_not_intro unseen)]
        by_cases loop : id ∈ next id
        · rw [if_pos loop, if_pos loop]
          rfl
        · rw [if_neg loop, if_neg loop]
          have opened := valid.meet unseen
          have fewer : (state.meet id).unseen.length ≤ depth := by
            have := length_meet unseen
            omega
          have visits : ∀ other ∈ (next id).reverse, other ∈ all ∧
              ∀ waiting ∈ id :: open_, Leads next waiting other := fun other held =>
            searchable.successor inside led (List.mem_reverse.1 held)
          have below := explores_of_visit depth (next id).reverse
            (fun other held => explores_visit searchable depth (visits other held).1
              (visits other held).2) opened fewer
          have pushed := trail_append searchable depth
            ((next id).reverse.filter fun other => other ∈ (state.meet id).unseen)
            (fun other held => visits other (List.mem_filter.1 held).1)
            (fun other held => by
              obtain ⟨edge, new⟩ := List.mem_filter.1 held
              have apart : other ∉ id :: open_ := fun waiting =>
                (opened.of_open searchable waiting).1 (of_decide_eq_true new)
              exact step (visits other edge).1 apart (visits other edge).2)
            opened fewer (id :: stack)
          rw [← List.filter_reverse, pushed,
            foldlM_visit_filter searchable visits opened fewer fun _ held => held]
          cases visited : (next id).reverse.foldlM (visit next depth) (state.meet id) with
          | error loop => rfl
          | ok middle =>
              rw [visited] at below
              obtain ⟨here, waiting⟩ := below.1.of_open searchable List.mem_cons_self
              show trail next middle (id :: stack) = trail next (middle.finish id) stack
              rw [trail, if_neg here, if_neg waiting]
      · rw [trail, if_neg unseen, if_pos (valid.finished_of_met inside unseen closed),
          visit_of_met unseen]
        rfl

/-- The first phase comes to the same with a stack and without. -/
theorem trailAll_eq (searchable : Searchable next all) : trailAll next all = visitAll next all := by
  have start : Valid next all [] ⟨all, []⟩ := ⟨by simp, trivial⟩
  have agree : ∀ (ids : List Id) (state : Search), (∀ id ∈ ids, id ∈ all) →
      Valid next all [] state → state.unseen.length ≤ all.length →
      ids.foldlM (fun state id => if id ∈ state.unseen then trail next state [id] else .ok state)
        state = ids.foldlM (visit next all.length) state := by
    intro ids
    induction ids with
    | nil => exact fun _ _ _ _ => rfl
    | cons id rest step =>
        intro state inside valid bound
        obtain ⟨here, later⟩ := List.forall_mem_cons.1 inside
        have explored := explores_visit searchable all.length here
          (fun _ waiting => absurd waiting List.not_mem_nil) state valid bound
        have same : (if id ∈ state.unseen then trail next state [id] else .ok state) =
            visit next all.length state id := by
          by_cases unseen : id ∈ state.unseen
          · rw [if_pos unseen, trail_cons searchable all.length here List.not_mem_nil
              (fun _ waiting => absurd waiting List.not_mem_nil) state valid bound]
            simp only [trail]
            exact bind_pure _
          · rw [if_neg unseen, visit_of_met unseen]
        rw [List.foldlM_cons, List.foldlM_cons, same]
        cases visited : visit next all.length state id with
        | error loop => rfl
        | ok middle =>
            rw [visited] at explored
            exact step middle later explored.1 (Nat.le_trans explored.2.fewer.length_le bound)
  exact agree all _ (fun _ held => held) start (Nat.le_refl _)

/-- A walk backwards from a new vertex fails exactly if something that feeds it is new as well, and
reports the last such feeder. -/
theorem walk_new {discovered : List Id} (new : id ∉ discovered) :
    walk before discovered false [id] =
      match ((before id).filter fun feeder => feeder ∉ id :: discovered).getLast? with
      | some feeder => .error feeder
      | none => .ok (id :: discovered) := by
  rw [walk, if_neg new, if_neg Bool.false_ne_true, List.append_nil, List.getLast?_eq_head?_reverse]
  generalize late : ((before id).filter fun feeder => feeder ∉ id :: discovered).reverse = feeders
  cases feeders with
  | nil => rw [walk]; rfl
  | cons feeder rest =>
      have held : feeder ∈ ((before id).filter fun feeder => feeder ∉ id :: discovered).reverse :=
        late ▸ List.mem_cons_self
      have apart := of_decide_eq_true (List.mem_filter.1 (List.mem_reverse.1 held)).2
      rw [walk, if_neg apart, if_pos rfl]
      rfl

/-- The walks of the second phase check an order of distinct vertices. -/
theorem walkAll_eq {order : List Id} (distinct : order.Nodup) :
    (walkAll before order).map (fun _ => ()) = checkOrder before [] order := by
  have agree : ∀ (placed rest : List Id), rest.Nodup → (∀ id ∈ rest, id ∉ placed) →
      (rest.foldlM (fun discovered id => walk before discovered false [id]) placed).map
        (fun _ => ()) = checkOrder before placed rest := by
    intro placed rest
    induction rest generalizing placed with
    | nil => exact fun _ _ => rfl
    | cons id rest step =>
        intro once apart
        obtain ⟨here, once⟩ := List.nodup_cons.1 once
        obtain ⟨new, later⟩ := List.forall_mem_cons.1 apart
        rw [List.foldlM_cons, walk_new new, checkOrder]
        cases ((before id).filter fun feeder => feeder ∉ id :: placed).getLast? with
        | some feeder => rfl
        | none =>
            refine step (id :: placed) once fun other held old => ?_
            rcases List.mem_cons.1 old with rfl | old
            · exact here held
            · exact later other held old
  exact agree [] order distinct fun _ _ => List.not_mem_nil

end Search

/-- On every level the search with a stack and the recursive search come to the same. -/
theorem stackOrder_eq (dag : Dag) : dag.stackOrder = dag.topologicalOrder := by
  have explored := Search.explores_visitAll dag.searchable
  rw [stackOrder, topologicalOrder, Search.trailAll_eq dag.searchable]
  cases visited : Search.visitAll dag.successors dag.vertices with
  | error loop => rfl
  | ok state =>
      rw [visited] at explored
      have distinct := explored.1.nodup_iff.2 dag.vertices_nodup
      dsimp only
      rw [← Search.walkAll_eq distinct]
      cases Search.walkAll dag.predecessors state.finished with
      | error feeder => rfl
      | ok discovered => rfl

/-- However a graph is built, the order of the elements of a level is exact. It is given exactly if
the edges of the level run in no circle, and then holds every element once, with all edges pointing
forward; an element that is reported instead lies on a circle. The search with a stack would answer
the same. -/
theorem built_topologicalOrder {dag level : Dag} (built : dag.Built) (has : dag.HasLevel level) :
    ((∃ order, level.topologicalOrder = .ok order) ↔ Acyclic level.Feeds) ∧
      (∀ order, level.topologicalOrder = .ok order → level.OrdersElements order) ∧
      (∀ failure, level.topologicalOrder = .error failure → ∃ element ∈ level.elements,
        failure = .cycle level.name element ∧ TransGen level.Feeds element element) ∧
      level.topologicalOrder = level.stackOrder := by
  have joined : ∀ edge ∈ level.edges.values,
      edge.source ∈ level.elements ∧ edge.target ∈ level.elements := fun edge held =>
    ((built.consistent level has).edges_joined edge held).imp hasEndpoint_iff.1 hasEndpoint_iff.1
  exact ⟨topologicalOrder_ok_iff joined, fun _ given => ordersElements_of_ok joined given,
    fun _ given => circle_of_error joined given, level.stackOrder_eq.symm⟩

/-- Two nodes and a nested level in a row, with parallel edges between the nodes, and more edges. -/
def row (edges : List Edge) : Dag :=
  (empty (.ofNat 0) "row").performAll ([.addNode ⟨.ofNat 1, "mill", .plain⟩,
    .addNode ⟨.ofNat 2, "bake", .plain⟩, .attach (empty (.ofNat 3) "shop"),
    .addEdge ⟨.ofNat 4, "flour", .ofNat 1, .ofNat 2, .plain⟩,
    .addEdge ⟨.ofNat 5, "bran", .ofNat 1, .ofNat 2, .plain⟩,
    .addEdge ⟨.ofNat 6, "bread", .ofNat 2, .ofNat 3, .plain⟩] ++ edges.map .addEdge)

theorem built_row (edges : List Edge) : (row edges).Built := by
  refine (Built.empty _ _).performAll _ fun operation held other given => ?_
  rcases List.mem_append.1 held with first | later
  · simp only [List.mem_cons, List.not_mem_nil, or_false] at first
    rcases first with rfl | rfl | rfl | rfl | rfl | rfl <;> simp_all [Operation.graphs, Built.empty]
  · obtain ⟨edge, -, rfl⟩ := List.mem_map.1 later
    cases given

/-- As it stands the row has an order. An edge back from the nested level makes a circle of it, and
an edge from a node to itself is a circle already. -/
theorem built_topologicalOrder_of_row :
    let back : Edge := ⟨.ofNat 7, "crumbs", .ofNat 3, .ofNat 1, .plain⟩
    let loop : Edge := ⟨.ofNat 7, "crust", .ofNat 2, .ofNat 2, .plain⟩
    ((row []).Built ∧ (row [back]).Built ∧ (row [loop]).Built) ∧
      (Acyclic (row []).Feeds ∧ (row []).OrdersElements [.ofNat 1, .ofNat 2, .ofNat 3]) ∧
      TransGen (row [back]).Feeds (.ofNat 3) (.ofNat 3) ∧
      TransGen (row [loop]).Feeds (.ofNat 2) (.ofNat 2) := by
  intro back loop
  obtain ⟨exists_iff, ordered, -⟩ := built_topologicalOrder (built_row []) .self
  obtain ⟨-, -, circle, -⟩ := built_topologicalOrder (built_row [back]) .self
  obtain ⟨-, -, circle', -⟩ := built_topologicalOrder (built_row [loop]) .self
  have order : (row []).topologicalOrder = .ok [.ofNat 1, .ofNat 2, .ofNat 3] := by decide +kernel
  have failure : (row [back]).topologicalOrder = .error (.cycle "row" (.ofNat 3)) := by decide +kernel
  have failure' : (row [loop]).topologicalOrder = .error (.cycle "row" (.ofNat 2)) := by decide +kernel
  obtain ⟨element, -, same, around⟩ := circle _ failure
  obtain ⟨element', -, same', around'⟩ := circle' _ failure'
  cases same
  cases same'
  exact ⟨⟨built_row _, built_row _, built_row _⟩, ⟨exists_iff.1 ⟨_, order⟩, ordered _ order⟩, around,
    around'⟩

end RecipeGraph.Dag
