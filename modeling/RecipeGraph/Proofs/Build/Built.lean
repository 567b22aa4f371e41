/-
# Statements build graphs by operations

Statements change a level by the operations on graphs and by nothing else: what is nested or absorbed
has come about in the same way, be it in a namespace or in another recipe. So whatever is known of
graphs that have been built by operations is known of those that statements build.
-/

import RecipeGraph.Build.Statement
import RecipeGraph.Proofs.Graph.Consistent

namespace RecipeGraph

variable {σ : Type}

namespace Dag.Built

variable {dag other : Dag}

/-- An operation on one graph alone. -/
theorem change (built : dag.Built) (operation : Operation) (alone : operation.graphs = []) :
    (dag.perform operation).2.Built :=
  built.perform (alone ▸ nofun)

theorem addEdge (built : dag.Built) {edge : Edge} (added : dag.addEdge edge = .ok other) :
    other.Built := by
  have changed := built.change (.addEdge edge) rfl
  rwa [Dag.perform, added] at changed

/-- A graph may be handed in if it has been built. -/
theorem attach (built : dag.Built) (inner : other.Built) : (dag.attach other).Built :=
  @perform dag (.attach other) built fun _ held => List.mem_singleton.1 held ▸ inner

theorem merge (built : dag.Built) (inner : other.Built) : (dag.merge other).Built :=
  @perform dag (.merge other) built fun _ held => List.mem_singleton.1 held ▸ inner

end Dag.Built

/-- The level at hand has been built by operations, and what the resolver keeps has the given
property. -/
structure Work.Built (keeps : σ → Prop) (work : Work σ) : Prop where
  level : work.level.Built
  store : keeps work.session.store

/-- What an import has to come to: a graph it gives has been built by operations. -/
structure Fetched.Built (keeps : σ → Prop) (fetched : Fetched σ) : Prop where
  store : keeps fetched.session.store
  graph : ∀ graph, fetched.result = .ok graph → graph.Built

/-- Every import comes to a graph that has been built by operations, or to none. -/
def Resolve.Built (keeps : σ → Prop) (resolve : Resolve σ) : Prop :=
  ∀ location chain session, keeps session.store → (resolve location chain session).Built keeps

namespace Work.Built

variable {keeps : σ → Prop} {work : Work σ}

/-! ### Arguments -/

theorem report (built : work.Built keeps) (warning : Warning) : (work.report warning).Built keeps := by
  refine ⟨built.level, ?_⟩
  unfold Work.report
  split
  · exact built.store
  · exact built.store

theorem openNode (built : work.Built keeps) (name : String) (style : Option StyleBlock) :
    (work.openNode name style).2.Built keeps :=
  ⟨built.level.change (.addNode _) rfl, built.store⟩

theorem connect (built : work.Built keeps) (target : Id) (incoming : Incoming) :
    (work.connect target incoming).Built keeps := by
  unfold Work.connect
  dsimp only
  split
  · next level added => exact ⟨built.level.addEdge added, built.store⟩
  · have taken : work.freshId.2.Built keeps := ⟨built.level, built.store⟩
    exact taken.report _

theorem connectAll (built : work.Built keeps) (target : Id) (incoming : List Incoming) :
    (work.connectAll target incoming).Built keeps := by
  induction incoming generalizing work with
  | nil => exact built
  | cons argument rest step => exact step (built.connect target argument)

theorem lookUp (built : work.Built keeps) (path : Spanned QualifiedPath) :
    (work.lookUp path).2.Built keeps := by
  unfold Work.lookUp
  split
  · exact built.report _
  · exact built

mutual

theorem gatherOne : ∀ (argument : Argument) {work : Work σ}, work.Built keeps →
    (Work.gatherOne argument work).2.Built keeps
  | .call ⟨⟨name, arguments, style⟩, _⟩, _, built =>
    (gather arguments (built.openNode name.value style)).connectAll _ _
  | .reference path, _, built => built.lookUp path
termination_by structural argument => argument

theorem gather : ∀ (arguments : List Argument) {work : Work σ}, work.Built keeps →
    (Work.gather arguments work).2.Built keeps
  | [], _, built => built
  | argument :: rest, _, built => gather rest (gatherOne argument built)
termination_by structural arguments => arguments

end

/-! ### Steps of statements -/

theorem placeCall (built : work.Built keeps) (made : Call) : (work.placeCall made).2.Built keeps := by
  obtain ⟨name, arguments, style⟩ := made
  exact gatherOne (.call ⟨⟨name, arguments, style⟩, default⟩) built

theorem bindTargets (built : work.Built keeps) (targets : List Target) (id : Id) :
    (work.bindTargets targets id).Built keeps := by
  induction targets generalizing work with
  | nil => exact built
  | cons target rest step =>
      have bound := built.level.change (.setVariable target.name.value id) rfl
      exact step ⟨bound.change (.setVariableStyle _ _) rfl, built.store⟩

theorem placeAlias (built : work.Built keeps) (target : Target) (path : Spanned QualifiedPath) :
    (work.placeAlias target path).Built keeps := by
  unfold Work.placeAlias
  split
  · exact built.report _
  · exact built.bindTargets [target] _

theorem placeStyle (built : work.Built keeps) (name : Spanned String) (block : StyleBlock) :
    (work.placeStyle name block).Built keeps := by
  have reported : ∀ (tags : List (Spanned QualifiedPath)) {work : Work σ}, work.Built keeps →
      (tags.foldl (fun work tag => work.report (.undefinedStyleTag tag)) work).Built keeps := by
    intro tags
    induction tags with
    | nil => exact fun built => built
    | cons tag rest step => exact fun built => step (built.report _)
  have told := reported (block.flatten work.level).missing built
  exact ⟨told.level.change (.setStyle _ _) rfl, told.store⟩

theorem placeBinding (built : work.Built keeps) (keyword : Spanned String)
    (tags : List (Spanned QualifiedPath)) : (work.placeBinding keyword tags).Built keeps :=
  ⟨built.level.change (.bindStyles _ _) rfl, built.store⟩

theorem openLevel (built : work.Built keeps) (name : Option (Spanned String))
    (style : Option StyleBlock) : (work.openLevel name style).Built keeps :=
  have placed := (Dag.Built.empty work.freshId.1 ((name.map Spanned.value).getD "")).change
    (.withParent work.level.id) rfl
  ⟨placed.change (.withStyle (elementStyle style)) rfl, built.store⟩

theorem closeLevel (built : work.Built keeps) {outer : Dag} (around : outer.Built)
    (incoming : List Incoming) : (work.closeLevel outer incoming).2.Built keeps := by
  have attached : Built keeps { work with level := outer.attach work.level } :=
    ⟨around.attach built.level, built.store⟩
  exact attached.connectAll _ incoming

/-- A namespace is built inside and nested outside. -/
theorem nest (built : work.Built keeps) (arguments : List Argument) {build : Work σ → Work σ}
    (name : Option (Spanned String)) (style : Option StyleBlock)
    (inside : ∀ {work : Work σ}, work.Built keeps → (build work).Built keeps) :
    let gathered := Work.gather arguments work
    let closed := (build (gathered.2.openLevel name style)).closeLevel gathered.2.level gathered.1
    closed.2.Built keeps := by
  have gathered := gather arguments built
  exact (inside (gathered.openLevel name style)).closeLevel gathered.level _

/-! ### Imports -/

section Imports

variable {resolve : Resolve σ}

theorem fetch (built : work.Built keeps) (resolves : resolve.Built keeps) (location : String) :
    (work.fetch resolve location).2.Built keeps ∧
      ∀ graph, (work.fetch resolve location).1 = .ok graph → graph.Built := by
  unfold Work.fetch
  split
  · exact ⟨⟨built.level, built.store⟩, nofun⟩
  · have fetched := resolves location ((work.chain.recordImport location).push location)
      work.session built.store
    exact ⟨⟨built.level.change (.addImport location) rfl, fetched.store⟩, fetched.graph⟩

theorem fetchImport (built : work.Built keeps) (resolves : resolve.Built keeps) (source : Import) :
    (work.fetchImport resolve source).2.Built keeps ∧
      ∀ graph ∈ (work.fetchImport resolve source).1, graph.Built := by
  unfold Work.fetchImport
  split
  · exact ⟨built.report _, nofun⟩
  · have here := built.fetch resolves source.location.value
    split
    · next imported work' same =>
        rw [same] at here
        exact ⟨here.1, fun graph held => Option.some.inj held ▸ here.2 imported rfl⟩
    · next failure work' same =>
        rw [same] at here
        exact ⟨here.1.report _, nofun⟩

theorem adopt (built : work.Built keeps) {imported : Dag} (graph : imported.Built)
    (name : Option (Spanned String)) : (work.adopt imported name).2.Built keeps :=
  ⟨built.level.attach (graph.change (.reidentify _ _) rfl), built.store⟩

theorem placeNestedImport (built : work.Built keeps) (resolves : resolve.Built keeps)
    (source : Import) : (work.placeNestedImport resolve source).2.Built keeps := by
  have fetched := built.fetchImport resolves source
  unfold Work.placeNestedImport
  split
  · next same =>
      rw [same] at fetched
      exact fetched.1
  · next imported work' same =>
      rw [same] at fetched
      exact fetched.1.adopt (fetched.2 imported rfl) source.name

theorem placeImport (built : work.Built keeps) (resolves : resolve.Built keeps) (source : Import) :
    (work.placeImport resolve source).Built keeps := by
  have fetched := built.fetchImport resolves source
  unfold Work.placeImport
  split
  · next same =>
      rw [same] at fetched
      exact fetched.1
  · next imported work' same =>
      rw [same] at fetched
      split
      · exact fetched.1.adopt (fetched.2 imported rfl) source.name
      · exact ⟨fetched.1.level.merge (fetched.2 imported rfl), fetched.1.store⟩

/-! ### Statements -/

mutual

/-- One statement performs operations, whatever kind of statement it is. -/
theorem place (resolves : resolve.Built keeps) : ∀ (statement : Statement) {work : Work σ},
    work.Built keeps → (Work.place resolve statement work).Built keeps
  | .call made, _, built => built.placeCall made
  | .assignment targets (.call made), _, built =>
    (built.placeCall made.value).bindTargets targets _
  | .assignment targets (.level ⟨⟨name, statements, arguments, style⟩, _⟩), _, built =>
    (built.nest arguments name style fun inside =>
      placeAll resolves statements inside).bindTargets targets _
  | .assignment targets (.fetched source), work, built => by
      have placed : (work.placeNestedImport resolve source.value).2.Built keeps :=
        built.placeNestedImport resolves source.value
      rw [Work.place]
      split
      · next same =>
          rw [same] at placed
          exact placed
      · next same =>
          rw [same] at placed
          exact placed.bindTargets targets _
  | .alias target path, _, built => built.placeAlias target path
  | .namedStyle name style, _, built => built.placeStyle name style
  | .styleBinding keyword tags, _, built => built.placeBinding keyword tags
  | .level ⟨name, statements, arguments, style⟩, _, built =>
    built.nest arguments name style fun inside => placeAll resolves statements inside
  | .fetched source, _, built => built.placeImport resolves source
  | .reference path, _, built => built.report (.noEffect path)
termination_by structural statement => statement

/-- Any number of statements performs operations. -/
theorem placeAll (resolves : resolve.Built keeps) :
    ∀ (statements : List (Spanned Statement)) {work : Work σ}, work.Built keeps →
      (Work.placeAll resolve statements work).Built keeps
  | [], _, built => built
  | ⟨statement, _⟩ :: rest, _, built => placeAll resolves rest (place resolves statement built)
termination_by structural statements => statements

end

end Imports

end Work.Built

/-- The graph of a recipe is built by operations. -/
theorem Recipe.build_built {keeps : σ → Prop} {resolve : Resolve σ} (resolves : resolve.Built keeps)
    (recipe : Recipe) (chain : ImportChain) {session : Session σ} (store : keeps session.store) :
    (recipe.build resolve chain session).Built keeps :=
  .placeAll resolves recipe.statements ⟨.empty _ _, store⟩

end RecipeGraph
