/-
# Building keeps to proper names

A level takes its names from statements and from the graphs that are imported. Where the names of
the statements are proper and imported graphs have proper names, so does what is built. An edge is
named by the last segment of a path, or not at all, and has the style that was declared on a
variable; that style is looked up at some level and had proper tags when it was put there.
-/

import RecipeGraph.Build.Statement
import RecipeGraph.Proofs.Graph.Names

namespace RecipeGraph

open RecipeGraph.Parser

variable {σ : Type}

/-- The edge of an argument will have a proper name and style. -/
def Incoming.Named (incoming : Incoming) : Prop :=
  IsLabel incoming.name ∧ incoming.style.Named

/-- The level at hand has proper names, and what the resolver keeps has the given property. -/
structure Work.Named (keeps : σ → Prop) (work : Work σ) : Prop where
  level : work.level.NamedThroughout
  store : keeps work.session.store

/-- What an import has to come to: a graph it gives has proper names. -/
structure Fetched.Named (keeps : σ → Prop) (fetched : Fetched σ) : Prop where
  store : keeps fetched.session.store
  graph : ∀ graph, fetched.result = .ok graph → graph.NamedThroughout

/-- Every import comes to a graph with proper names, or to none. -/
def Resolve.Named (keeps : σ → Prop) (resolve : Resolve σ) : Prop :=
  ∀ location chain session, keeps session.store → (resolve location chain session).Named keeps

theorem named_elementStyle {style : Option StyleBlock} (named : ∀ block ∈ style, block.Named) :
    (elementStyle style).Named := by
  cases style with
  | none => exact Style.named_plain
  | some block =>
      intro tag held
      obtain ⟨written, listed, rfl⟩ := List.mem_map.1 held
      exact named block rfl written listed

theorem isLabel_getD {name : Option (Spanned String)} (named : ∀ word ∈ name, IsName word.value) :
    IsLabel ((name.map Spanned.value).getD "") := by
  cases name with
  | none => exact .inl rfl
  | some word => exact .inr (named word rfl)

theorem QualifiedPath.Named.isLabel_last {path : QualifiedPath} (named : path.Named) :
    IsLabel (path.last?.getD "") := by
  cases last : path.last? with
  | none => exact .inl rfl
  | some name => exact .inr (named.2 name (List.mem_of_getLast? last))

namespace Work

variable {keeps : σ → Prop} {work : Work σ}

/-- A step that leaves the level and what the resolver keeps. -/
theorem Named.congr {after : Work σ} (named : work.Named keeps) (level : after.level = work.level)
    (store : after.session.store = work.session.store) : after.Named keeps :=
  ⟨level ▸ named.level, store ▸ named.store⟩

theorem Named.report (named : work.Named keeps) (warning : Warning) :
    (work.report warning).Named keeps := by
  refine named.congr rfl ?_
  unfold Work.report
  split
  · rfl
  · rfl

theorem Named.onLevel (named : work.Named keeps) {change : Dag → Dag}
    (level : (change work.level).NamedThroughout) : (work.onLevel change).Named keeps :=
  ⟨level, named.store⟩

theorem Named.openNode (named : work.Named keeps) {name : String} (isName : IsName name)
    {style : Option StyleBlock} (styled : ∀ block ∈ style, block.Named) :
    (work.openNode name style).2.Named keeps :=
  ⟨named.level.change (named.level.root.addNode isName (named_elementStyle styled)) rfl, named.store⟩

/-! ### Arguments -/

theorem Named.connect (named : work.Named keeps) (target : Id) {incoming : Incoming}
    (given : incoming.Named) : (work.connect target incoming).Named keeps := by
  unfold Work.connect
  dsimp only
  split
  · next level added =>
      obtain ⟨_, _, rfl⟩ := Dag.addEdge_ok added
      exact ⟨named.level.change (named.level.root.insertEdge given.1 given.2) rfl, named.store⟩
  · have taken : work.freshId.2.Named keeps := named.congr rfl rfl
    exact taken.report _

theorem Named.connectAll (named : work.Named keeps) (target : Id) {incoming : List Incoming}
    (given : ∀ argument ∈ incoming, argument.Named) :
    (work.connectAll target incoming).Named keeps := by
  induction incoming generalizing work with
  | nil => exact named
  | cons argument rest step =>
      obtain ⟨here, later⟩ := List.forall_mem_cons.1 given
      exact step (named.connect target here) later

theorem Named.lookUp (named : work.Named keeps) {path : Spanned QualifiedPath}
    (written : path.value.Named) :
    (work.lookUp path).2.Named keeps ∧ ∀ argument ∈ (work.lookUp path).1, argument.Named := by
  unfold Work.lookUp
  split
  · exact ⟨named.report _, nofun⟩
  · refine ⟨named, fun argument held => ?_⟩
    obtain rfl := Option.some.inj held
    refine ⟨written.isLabel_last, ?_⟩
    cases found : work.level.variableStyle? path.value with
    | none => exact Style.named_plain
    | some style => exact named.level.variableStyleAt? found

mutual

theorem Named.gatherOne : ∀ (argument : Argument) {work : Work σ}, work.Named keeps →
    argument.Named → (Work.gatherOne argument work).2.Named keeps ∧
      ∀ incoming ∈ (Work.gatherOne argument work).1, incoming.Named
  | .call ⟨⟨_, arguments, _⟩, _⟩, _, named, ⟨isName, passed, styled⟩ =>
    have gathered := Named.gather arguments (named.openNode isName styled) passed
    ⟨gathered.1.connectAll _ gathered.2, fun _ held =>
      Option.some.inj held ▸ ⟨.inl rfl, Style.named_plain⟩⟩
  | .reference _, _, named, written => named.lookUp written
termination_by structural argument => argument

theorem Named.gather : ∀ (arguments : List Argument) {work : Work σ}, work.Named keeps →
    Argument.listNamed arguments → (Work.gather arguments work).2.Named keeps ∧
      ∀ incoming ∈ (Work.gather arguments work).1, incoming.Named
  | [], _, named, _ => ⟨named, nofun⟩
  | argument :: rest, _, named, ⟨here, later⟩ =>
    have first := Named.gatherOne argument named here
    have others := Named.gather rest first.1 later
    ⟨others.1, List.forall_mem_append.2
      ⟨fun incoming held => first.2 incoming (Option.mem_toList.1 held), others.2⟩⟩
termination_by structural arguments => arguments

end

/-! ### Steps of statements -/

theorem Named.placeCall (named : work.Named keeps) {made : Call} (proper : Call.Named made) :
    (work.placeCall made).2.Named keeps := by
  obtain ⟨name, arguments, style⟩ := made
  exact (named.gatherOne (.call ⟨⟨name, arguments, style⟩, default⟩) proper).1

theorem Named.bindTarget (named : work.Named keeps) (id : Id) {target : Target}
    (proper : target.Named) : (work.bindTarget id target).Named keeps := by
  refine named.onLevel (named.level.change ((named.level.root.setVariable _ id).setVariableStyle _ ?_)
    rfl)
  intro style held
  obtain ⟨block, given, rfl⟩ := Option.map_eq_some_iff.1 held
  exact named_elementStyle fun other same => Option.some.inj same ▸ proper.2 block given

theorem Named.bindTargets (named : work.Named keeps) (id : Id) {targets : List Target}
    (proper : ∀ target ∈ targets, target.Named) : (work.bindTargets targets id).Named keeps := by
  induction targets generalizing work with
  | nil => exact named
  | cons target rest step =>
      obtain ⟨here, later⟩ := List.forall_mem_cons.1 proper
      exact step (named.bindTarget id here) later

theorem Named.placeAlias (named : work.Named keeps) {target : Target} (proper : target.Named)
    (path : Spanned QualifiedPath) : (work.placeAlias target path).Named keeps := by
  unfold Work.placeAlias
  split
  · exact named.report _
  · exact named.bindTarget _ proper

theorem Named.placeStyle (named : work.Named keeps) {name : Spanned String}
    (isName : IsName name.value) (block : StyleBlock) : (work.placeStyle name block).Named keeps := by
  have reported : ∀ (tags : List (Spanned QualifiedPath)) {work : Work σ}, work.Named keeps →
      (tags.foldl (fun work tag => work.report (.undefinedStyleTag tag)) work).Named keeps := by
    intro tags
    induction tags with
    | nil => exact fun named => named
    | cons tag rest step => exact fun named => step (named.report _)
  have told := reported (block.flatten work.level).missing named
  have registered := told.level.root.setStyle isName (block.flatten work.level).properties
  exact ⟨told.level.change registered rfl, told.store⟩

theorem Named.placeBinding (named : work.Named keeps) {keyword : Spanned String}
    (isName : IsName keyword.value) {tags : List (Spanned QualifiedPath)}
    (tagged : ∀ tag ∈ tags, tag.value.Named) : (work.placeBinding keyword tags).Named keeps := by
  refine named.onLevel (named.level.change (named.level.root.bindStyles isName fun tag held => ?_) rfl)
  obtain ⟨written, listed, rfl⟩ := List.mem_map.1 held
  exact tagged written listed

theorem Named.openLevel (named : work.Named keeps) {name : Option (Spanned String)}
    (label : ∀ word ∈ name, IsName word.value) {style : Option StyleBlock}
    (styled : ∀ block ∈ style, block.Named) : (work.openLevel name style).Named keeps := by
  have empty := Dag.Named.empty work.freshId.1 (isLabel_getD label)
  exact ⟨.intro ((empty.withParent _).withStyle (named_elementStyle styled)) nofun, named.store⟩

theorem Named.closeLevel (named : work.Named keeps) {outer : Dag} (around : outer.NamedThroughout)
    {incoming : List Incoming} (given : ∀ argument ∈ incoming, argument.Named) :
    (work.closeLevel outer incoming).2.Named keeps := by
  have attached : Named keeps { work with level := outer.attach work.level } :=
    ⟨Dag.NamedThroughout.attach around named.level, named.store⟩
  exact attached.connectAll _ given

/-- A namespace is built inside and nested outside. -/
theorem Named.nest (named : work.Named keeps) {arguments : List Argument}
    (passed : Argument.listNamed arguments) {build : Work σ → Work σ}
    {name : Option (Spanned String)} (label : ∀ word ∈ name, IsName word.value)
    {style : Option StyleBlock} (styled : ∀ block ∈ style, block.Named)
    (inside : ∀ {work : Work σ}, work.Named keeps → (build work).Named keeps) :
    let gathered := Work.gather arguments work
    let closed := (build (gathered.2.openLevel name style)).closeLevel gathered.2.level gathered.1
    closed.2.Named keeps := by
  obtain ⟨named', given⟩ := named.gather arguments passed
  exact (inside (named'.openLevel label styled)).closeLevel named'.level given

/-! ### Imports -/

section Imports

variable {resolve : Resolve σ}

theorem Named.fetchImport (named : work.Named keeps) (resolves : resolve.Named keeps)
    (source : Import) :
    (work.fetchImport resolve source).2.Named keeps ∧
      ∀ graph ∈ (work.fetchImport resolve source).1, graph.NamedThroughout := by
  have fetched : ∀ location, (work.fetch resolve location).2.Named keeps ∧
      ∀ graph, (work.fetch resolve location).1 = .ok graph → graph.NamedThroughout := by
    intro location
    unfold Work.fetch
    split
    · exact ⟨⟨named.level, named.store⟩, nofun⟩
    · have fetched := resolves location ((work.chain.recordImport location).push location)
        work.session named.store
      exact ⟨⟨named.level.change (named.level.root.addImport location) rfl, fetched.store⟩,
        fetched.graph⟩
  unfold Work.fetchImport
  split
  · exact ⟨named.report _, nofun⟩
  · have here := fetched source.location.value
    split
    · next imported work' same =>
        rw [same] at here
        exact ⟨here.1, fun graph held => Option.some.inj held ▸ here.2 imported rfl⟩
    · next failure work' same =>
        rw [same] at here
        exact ⟨here.1.report _, nofun⟩

theorem Named.adopt (named : work.Named keeps) {imported : Dag} (graph : imported.NamedThroughout)
    {name : Option (Spanned String)} (label : ∀ word ∈ name, IsName word.value) :
    (work.adopt imported name).2.Named keeps :=
  ⟨Dag.NamedThroughout.attach named.level (.reidentify graph _ (isLabel_getD label)), named.store⟩

theorem Named.placeNestedImport (named : work.Named keeps) (resolves : resolve.Named keeps)
    {source : Import} (label : source.Named) :
    (work.placeNestedImport resolve source).2.Named keeps := by
  have fetched := named.fetchImport resolves source
  unfold Work.placeNestedImport
  split
  · next same =>
      rw [same] at fetched
      exact fetched.1
  · next imported work' same =>
      rw [same] at fetched
      exact fetched.1.adopt (fetched.2 imported rfl) label

theorem Named.placeImport (named : work.Named keeps) (resolves : resolve.Named keeps)
    {source : Import} (label : source.Named) : (work.placeImport resolve source).Named keeps := by
  have fetched := named.fetchImport resolves source
  unfold Work.placeImport
  split
  · next same =>
      rw [same] at fetched
      exact fetched.1
  · next imported work' same =>
      rw [same] at fetched
      split
      · exact fetched.1.adopt (fetched.2 imported rfl) label
      · exact fetched.1.onLevel (Dag.NamedThroughout.merge fetched.1.level (fetched.2 imported rfl))

/-! ### Statements -/

mutual

/-- One statement keeps to proper names, whatever kind of statement it is. -/
theorem Named.place (resolves : resolve.Named keeps) : ∀ (statement : Statement) {work : Work σ},
    work.Named keeps → statement.Named → (Work.place resolve statement work).Named keeps
  | .call _, _, named, proper => named.placeCall proper
  | .assignment _ (.call _), _, named, ⟨targeted, proper⟩ =>
    (named.placeCall proper).bindTargets _ targeted
  | .assignment _ (.level ⟨⟨_, statements, _, _⟩, _⟩), _, named,
      ⟨targeted, label, inner, passed, styled⟩ =>
    (named.nest passed label styled fun inside =>
      Named.placeAll resolves statements inside inner).bindTargets _ targeted
  | .assignment targets (.fetched source), work, named, ⟨targeted, label⟩ => by
      have placed : (work.placeNestedImport resolve source.value).2.Named keeps :=
        named.placeNestedImport resolves label
      rw [Work.place]
      split
      · next same =>
          rw [same] at placed
          exact placed
      · next same =>
          rw [same] at placed
          exact placed.bindTargets _ targeted
  | .alias _ path, _, named, proper => named.placeAlias proper.1 path
  | .namedStyle _ style, _, named, proper => named.placeStyle proper.1 style
  | .styleBinding _ _, _, named, proper => named.placeBinding proper.1 proper.2
  | .level ⟨_, statements, _, _⟩, _, named, ⟨label, inner, passed, styled⟩ =>
    named.nest passed label styled fun inside => Named.placeAll resolves statements inside inner
  | .fetched _, _, named, label => named.placeImport resolves label
  | .reference path, _, named, _ => named.report (.noEffect path)
termination_by structural statement => statement

/-- Any number of statements keeps to proper names. -/
theorem Named.placeAll (resolves : resolve.Named keeps) :
    ∀ (statements : List (Spanned Statement)) {work : Work σ}, work.Named keeps →
      Statement.listNamed statements → (Work.placeAll resolve statements work).Named keeps
  | [], _, named, _ => named
  | ⟨statement, _⟩ :: rest, _, named, ⟨here, later⟩ =>
    Named.placeAll resolves rest (Named.place resolves statement named here) later
termination_by structural statements => statements

end

end Imports

end Work

/-- The graph of a recipe has proper names if the recipe does. -/
theorem Recipe.build_named {keeps : σ → Prop} {resolve : Resolve σ} (resolves : resolve.Named keeps)
    {recipe : Recipe} (named : recipe.Named) (chain : ImportChain) {session : Session σ}
    (store : keeps session.store) : (recipe.build resolve chain session).Named keeps :=
  Work.Named.placeAll resolves recipe.statements ⟨.empty _ (.inl rfl), store⟩ named

end RecipeGraph
