/-
# Every argument is accounted for

The builder prepares the arguments of a call or a namespace before it adds any of their edges, since
the element that they are passed to may not be there yet. What an argument has become is therefore
settled in two steps. While arguments are prepared, their nodes, the edges between these and the
warnings are added; the edges into the element itself come when it is there, one for each argument
that was found. On a sound level no edge is refused and no identifier is taken twice, so everything
that is added stays, behind what was there before.
-/

import RecipeGraph.Proofs.Build.Account
import RecipeGraph.Proofs.Build.Soundness
import RecipeGraph.Proofs.Graph.Minted

namespace RecipeGraph

variable {σ : Type}

theorem Warning.misses_unresolved (path : Spanned QualifiedPath) :
    (Warning.unresolved path).diagnostic.Misses path := by
  unfold Warning.unresolved Diagnostic.Misses
  split
  · exact ⟨rfl, rfl, rfl⟩
  · exact ⟨rfl, rfl, rfl⟩

namespace Work

variable {keeps : σ → Prop} {old : List String} {start : IdSupply} {work middle after : Work σ}
  {scope : Scope}

/-- From one state of the work to another, exactly this was added. -/
structure Gains (before : Work σ) (addition : Addition) (after : Work σ) : Prop where
  id : after.level.id = before.level.id
  name : after.level.name = before.level.name
  style : after.level.style = before.level.style
  nodes : after.level.nodes.values = before.level.nodes.values ++ addition.nodes
  edges : after.level.edges.values = before.level.edges.values ++ addition.edges
  elements : after.level.variableIds = before.level.variableIds.insertAll
    (addition.scope.bindings.map fun binding => (binding.name, binding.element))
  styles : after.level.variableStyles = before.level.variableStyles.insertAll
    (addition.scope.bindings.map fun binding => (binding.name, binding.style))
  children : after.level.children.values = before.level.children.values ++ addition.scope.children
  found : after.found.entries = before.found.entries ++ addition.warnings

namespace Gains

variable {addition later : Addition}

theorem trans (one : work.Gains addition middle) (two : middle.Gains later after) :
    work.Gains (addition ++ later) after where
  id := two.id.trans one.id
  name := two.name.trans one.name
  style := two.style.trans one.style
  nodes := by rw [two.nodes, one.nodes, List.append_assoc]; rfl
  edges := by rw [two.edges, one.edges, List.append_assoc]; rfl
  elements := by
    rw [two.elements, one.elements, ← OrderedMap.insertAll_append, ← List.map_append]
    rfl
  styles := by
    rw [two.styles, one.styles, ← OrderedMap.insertAll_append, ← List.map_append]
    rfl
  children := by rw [two.children, one.children, List.append_assoc]; rfl
  found := by rw [two.found, one.found, List.append_assoc]; rfl

/-- What was added to the level has been added to its scope. -/
theorem describes (gains : work.Gains addition after) (described : scope.Describes work.level) :
    (scope ++ addition.scope).Describes after.level :=
  described.append gains.elements gains.styles gains.children

end Gains

/-- A change that nodes, edges, variables and nested levels have no part in adds nothing. -/
theorem gains_register (change : Dag → Dag) (work : Work σ)
    (kept : ∀ dag, (change dag).id = dag.id ∧ (change dag).name = dag.name ∧
      (change dag).style = dag.style ∧ (change dag).nodes = dag.nodes ∧
      (change dag).edges = dag.edges ∧ (change dag).variableIds = dag.variableIds ∧
      (change dag).variableStyles = dag.variableStyles ∧ (change dag).children = dag.children) :
    work.Gains .nothing (work.onLevel change) := by
  obtain ⟨id, name, style, nodes, edges, elements, styles, children⟩ := kept work.level
  refine ⟨id, name, style, ?_, ?_, elements, styles, ?_, (List.append_nil _).symm⟩
  · exact (congrArg OrderedMap.values nodes).trans (List.append_nil _).symm
  · exact (congrArg OrderedMap.values edges).trans (List.append_nil _).symm
  · exact (congrArg OrderedMap.values children).trans (List.append_nil _).symm

theorem gains_nothing (work : Work σ) : work.Gains .nothing work :=
  gains_register id work fun _ => ⟨rfl, rfl, rfl, rfl, rfl, rfl, rfl, rfl⟩

theorem gains_report (warning : Warning) (work : Work σ) :
    work.Gains (.ofWarnings [warning.diagnostic]) (work.report warning) :=
  { gains_nothing work with found := rfl }

/-! ### Adding elements and edges -/

theorem Sound.gains_openNode (sound : work.Sound keeps old start) (name : String)
    (style : Option StyleBlock) :
    work.Gains (.ofNode ⟨(work.openNode name style).1, name, elementStyle style⟩)
      (work.openNode name style).2 :=
  { gains_nothing work with
    nodes := OrderedMap.values_insert_of_absent fun held =>
      sound.freshId_unused (Dag.mem_ids_iff.2 (.inr (.inl held))) }

theorem Sound.gains_connect (sound : work.Sound keeps old start) {target : Id} {incoming : Incoming}
    {rest : List Incoming} (ready : work.Ready target (incoming :: rest)) :
    work.Gains (.ofEdges [edgeOf work.freshId.1 target incoming]) (work.connect target incoming) := by
  rw [connect_eq (ready.sources _ List.mem_cons_self) ready.into]
  exact { gains_nothing work with
    edges := OrderedMap.values_insert_of_absent fun held =>
      sound.freshId_unused (Dag.mem_ids_iff.2 (.inr (.inr (.inl held)))) }

/-- The edge leads an argument into an element. -/
def Carries (target : Id) (incoming : Incoming) (edge : Edge) : Prop :=
  ∃ id, edge = edgeOf id target incoming

/-- Every argument that is on its way gets one edge, in the order of the arguments. -/
theorem Sound.gains_connectAll (sound : work.Sound keeps old start) {target : Id}
    {incoming : List Incoming} (ready : work.Ready target incoming) :
    ∃ edges, List.Forall₂ (Carries target) incoming edges ∧
      work.Gains (.ofEdges edges) (work.connectAll target incoming) := by
  induction incoming generalizing work with
  | nil => exact ⟨[], .nil, gains_nothing work⟩
  | cons argument rest step =>
      obtain ⟨sound', ready', _⟩ := sound.connect ready
      obtain ⟨edges, carried, gains⟩ := step sound' ready'
      exact ⟨_ :: edges, .cons ⟨_, rfl⟩ carried, (sound.gains_connect ready).trans gains⟩

/-! ### Preparing arguments -/

/-- The arguments are prepared, having added this much. As soon as their edges lead into an element,
they have become what arguments become. -/
def Settles (scope : Scope) (arguments : List Argument) (incoming : List Incoming)
    (addition : Addition) : Prop :=
  ∀ owner edges, List.Forall₂ (Carries owner) incoming edges →
    ∃ inflows, Argument.ListBecome scope owner arguments inflows ∧
      Inflow.listPrepared inflows = addition ∧ Inflow.edges inflows = edges

/-- What preparing arguments comes to. It binds nothing and nests nothing. -/
structure Prepares (scope : Scope) (arguments : List Argument) (before : Work σ)
    (incoming : List Incoming) (addition : Addition) (after : Work σ) : Prop where
  gains : before.Gains addition after
  unbound : addition.scope = .empty
  settles : Settles scope arguments incoming addition

namespace Prepares

variable {addition : Addition}

theorem describes {arguments : List Argument} {incoming : List Incoming}
    (prepared : Prepares scope arguments work incoming addition after)
    (described : scope.Describes work.level) : scope.Describes after.level := by
  have described' := prepared.gains.describes described
  rwa [prepared.unbound, Scope.append_empty] at described'

/-- One argument that comes to one argument on its way. -/
theorem one {argument : Argument} {produced : Incoming} (gains : work.Gains addition after)
    (unbound : addition.scope = .empty)
    (settled : ∀ owner id, ∃ inflow, argument.Becomes scope owner inflow ∧
      inflow.prepared = addition ∧ inflow.edge? = some (edgeOf id owner produced)) :
    Prepares scope [argument] work [produced] addition after := by
  refine ⟨gains, unbound, fun owner edges carried => ?_⟩
  obtain ⟨edge, rest, ⟨id, rfl⟩, none, rfl⟩ := List.forall₂_cons_left_iff.1 carried
  obtain rfl := List.forall₂_nil_left_iff.1 none
  obtain ⟨inflow, becomes, prepared, own⟩ := settled owner id
  refine ⟨[inflow], .cons becomes .nil, ?_, ?_⟩
  · rw [Inflow.listPrepared, Inflow.listPrepared, prepared, Addition.append_nothing]
  · rw [Inflow.edges, List.filterMap_cons_some own, List.filterMap_nil]

theorem cons {argument : Argument} {rest : List Argument} {first others : List Incoming}
    {later : Addition} (one : Prepares scope [argument] work first addition middle)
    (two : Prepares scope rest middle others later after) :
    Prepares scope (argument :: rest) work (first ++ others) (addition ++ later) after := by
  refine ⟨one.gains.trans two.gains, ?_, fun owner edges carried => ?_⟩
  · rw [Addition.append_eq, one.unbound, two.unbound]
    rfl
  · have carried₁ := List.forall₂_take_append edges first others carried.flip
    have carried₂ := List.forall₂_drop_append edges first others carried.flip
    obtain ⟨inflows, becomes, prepared, own⟩ := one.settles owner _ carried₁.flip
    obtain ⟨inflows', becomes', prepared', own'⟩ := two.settles owner _ carried₂.flip
    cases becomes with
    | @cons _ _ _ inflow _ becomes none =>
        cases none
        refine ⟨inflow :: inflows', .cons becomes becomes', ?_, ?_⟩
        · rw [← prepared, ← prepared']
          simp only [Inflow.listPrepared, Addition.append_nothing]
        · rw [← List.singleton_append, Inflow.edges, List.filterMap_append]
          exact (congr (congrArg _ own) own').trans (List.take_append_drop _ _)

end Prepares

theorem prepares_lookUp (sound : work.Sound keeps old start) (described : scope.Describes work.level)
    (path : Spanned QualifiedPath) :
    ∃ addition, Prepares scope [.reference path] work (work.lookUp path).1.toList addition
      (work.lookUp path).2 := by
  have root := sound.made.sound.root
  unfold Work.lookUp
  rw [described.producer?_eq root, described.variableStyle?_eq root]
  split
  · next absent =>
      refine ⟨_, gains_report _ work, rfl, fun owner edges carried => ?_⟩
      obtain rfl := List.forall₂_nil_left_iff.1 carried
      exact ⟨[.missing _], .cons (.missing absent (Warning.misses_unresolved path)) .nil, rfl, rfl⟩
  · next source found =>
      exact ⟨_, .one (gains_nothing work) rfl fun owner id =>
        ⟨.variable (edgeOf id owner _), .variable found, rfl, rfl⟩⟩

theorem describes_openNode (described : scope.Describes work.level) (name : String)
    (style : Option StyleBlock) : scope.Describes (work.openNode name style).2.level :=
  ⟨described.elements, described.styles, described.children⟩

/-- Once its arguments are prepared, a call is complete: its node, whatever they added, and one
edge for each of them that was found. -/
theorem Sound.gains_call (sound : work.Sound keeps old start) {name : String}
    {style : Option StyleBlock} {arguments : List Argument} {addition : Addition}
    (prepared : Prepares scope arguments (work.openNode name style).2
      (Work.gather arguments (work.openNode name style).2).1 addition
      (Work.gather arguments (work.openNode name style).2).2) :
    ∃ inflows, Argument.ListBecome scope (work.openNode name style).1 arguments inflows ∧
      Inflow.listPrepared inflows = addition ∧
      work.Gains (.ofNode ⟨(work.openNode name style).1, name, elementStyle style⟩ ++ addition ++
        .ofEdges (Inflow.edges inflows))
        ((Work.gather arguments (work.openNode name style).2).2.connectAll
          (work.openNode name style).1 (Work.gather arguments (work.openNode name style).2).1) := by
  obtain ⟨sound', gathers⟩ := (sound.openNode name style).gather arguments
  obtain ⟨edges, carried, connected⟩ := sound'.gains_connectAll (sound.ready_openNode gathers)
  obtain ⟨inflows, becomes, same, own⟩ := prepared.settles _ edges carried
  refine ⟨inflows, becomes, same, ?_⟩
  rw [own]
  exact ((sound.gains_openNode name style).trans prepared.gains).trans connected

mutual

theorem Sound.prepares_gatherOne : ∀ (argument : Argument) {work : Work σ},
    work.Sound keeps old start → scope.Describes work.level →
    ∃ addition, Prepares scope [argument] work (Work.gatherOne argument work).1.toList addition
      (Work.gatherOne argument work).2
  | .call ⟨⟨name, arguments, style⟩, span⟩, work, sound, described => by
      obtain ⟨addition, prepared⟩ := Sound.prepares_gather arguments
        (sound.openNode name.value style) (describes_openNode described name.value style)
      obtain ⟨inflows, becomes, rfl, gains⟩ := sound.gains_call prepared
      refine ⟨_, .one gains ?_ fun owner id =>
        ⟨.call _ inflows (edgeOf id owner _), .call becomes, rfl, rfl⟩⟩
      rw [Addition.append_eq, Addition.append_eq, prepared.unbound]
      rfl
  | .reference path, _, sound, described => prepares_lookUp sound described path
termination_by structural argument => argument

/-- Arguments are prepared in their order, all of them in one scope. -/
theorem Sound.prepares_gather : ∀ (arguments : List Argument) {work : Work σ},
    work.Sound keeps old start → scope.Describes work.level →
    ∃ addition, Prepares scope arguments work (Work.gather arguments work).1 addition
      (Work.gather arguments work).2
  | [], work, _, _ => by
      refine ⟨_, gains_nothing work, rfl, fun owner edges carried => ?_⟩
      obtain rfl := List.forall₂_nil_left_iff.1 carried
      exact ⟨[], .nil, rfl, rfl⟩
  | argument :: rest, _, sound, described => by
      obtain ⟨_, first⟩ := Sound.prepares_gatherOne argument sound described
      have sound' := (sound.gatherOne argument).1
      obtain ⟨_, others⟩ := Sound.prepares_gather rest sound' (first.describes described)
      exact ⟨_, first.cons others⟩
termination_by structural arguments => arguments

end

end Work

end RecipeGraph
