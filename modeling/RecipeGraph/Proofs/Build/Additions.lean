/-
# Every statement is accounted for

Each statement adds to the level at hand exactly what the rules say, and its name, its style and
everything that it holds stay as they were. A namespace is built in a level with nothing in it, so
that what its statements add is all that the nested level holds. A graph that is merged was made
after the level, so that nothing of the level is replaced by it. For a list of statements the scope
is carried along: what it holds describes the level before each of them.
-/

import RecipeGraph.Proofs.Build.Arguments

namespace RecipeGraph

variable {σ : Type}

/-- An import of the location may come to the graph. -/
def Resolve.Delivers (resolve : Resolve σ) (location : String) (graph : Dag) : Prop :=
  ∃ chain session, (resolve location chain session).result = .ok graph

theorem Warning.fails_importFailed (failure : ImportError) (source : Import) :
    (Warning.importFailed failure source.location.span).diagnostic.Fails source := by
  refine ⟨failure.code, ?_, rfl, rfl, rfl⟩
  cases failure <;> simp [ImportError.code]

namespace Dag

/-- On a level whose tables agree in their names, its variables are what both tables hold. -/
theorem boundVariables_eq {level : Dag} (shared : level.variableIds.keys = level.variableStyles.keys) :
    level.boundVariables.map (fun binding => (binding.name, binding.element)) =
        level.variableIds.entries ∧
      level.boundVariables.map (fun binding => (binding.name, binding.style)) =
        level.variableStyles.entries := by
  unfold boundVariables
  unfold OrderedMap.keys at shared
  generalize level.variableIds.entries = ids at shared
  generalize level.variableStyles.entries = styles at shared
  induction ids generalizing styles with
  | nil =>
      cases styles with
      | nil => exact ⟨rfl, rfl⟩
      | cons _ _ => cases shared
  | cons named rest step =>
      cases styles with
      | nil => cases shared
      | cons styled others =>
          obtain ⟨here, later⟩ := List.cons.inj shared
          obtain ⟨elements, styles⟩ := step others later
          rw [List.zipWith_cons_cons, List.map_cons, List.map_cons, elements, styles, here]
          exact ⟨by rw [← here], rfl⟩

end Dag

namespace Work

variable {keeps : σ → Prop} {old : List String} {start : IdSupply} {work : Work σ} {scope : Scope}
  {resolve : Resolve σ}

/-! ### Variables and styles -/

theorem gains_bindTargets (targets : List Target) (id : Id) (work : Work σ) :
    work.Gains (.ofBindings (targets.map (Target.binding id))) (work.bindTargets targets id) := by
  induction targets generalizing work with
  | nil => exact gains_nothing work
  | cons target rest step =>
      have here : work.Gains (.ofBindings [target.binding id]) (work.bindTarget id target) :=
        { gains_nothing work with elements := rfl, styles := rfl }
      exact here.trans (step (work.bindTarget id target))

theorem Sound.brings_placeAlias (sound : work.Sound keeps old start)
    (described : scope.Describes work.level) (gives : String → Dag → Prop) (target : Target)
    (path : Spanned QualifiedPath) :
    ∃ addition, Statement.Brings gives work.level.id scope (.alias target path) addition ∧
      work.Gains addition (work.placeAlias target path) := by
  unfold Work.placeAlias
  rw [described.producer?_eq sound.made.sound.root]
  split
  · next absent =>
      exact ⟨_, .missingAlias absent (Warning.misses_unresolved path), gains_report _ work⟩
  · next id found => exact ⟨_, .alias found, gains_bindTargets [target] id work⟩

theorem gains_reportTags (tags : List (Spanned QualifiedPath)) (work : Work σ) :
    ∃ warnings : List Diagnostic,
      (∀ warning ∈ warnings, ∃ span, warning.Warns .undefinedStyleTag span) ∧
        work.Gains (.ofWarnings warnings)
          (tags.foldl (fun work tag => work.report (.undefinedStyleTag tag)) work) := by
  induction tags generalizing work with
  | nil => exact ⟨[], nofun, gains_nothing work⟩
  | cons tag rest step =>
      obtain ⟨warnings, undefined, gains⟩ := step (work.report (.undefinedStyleTag tag))
      refine ⟨_ :: warnings, ?_, (gains_report _ work).trans gains⟩
      exact List.forall_mem_cons.2 ⟨⟨tag.span, rfl, rfl, rfl⟩, undefined⟩

theorem brings_placeStyle (scope : Scope) (gives : String → Dag → Prop) (name : Spanned String)
    (block : StyleBlock) (work : Work σ) :
    ∃ addition, Statement.Brings gives work.level.id scope (.namedStyle name block) addition ∧
      work.Gains addition (work.placeStyle name block) := by
  obtain ⟨warnings, undefined, gains⟩ := gains_reportTags (block.flatten work.level).missing work
  have registered := gains.trans (gains_register
    (fun level => level.setStyle name.value (block.flatten work.level).properties) _
    fun _ => ⟨rfl, rfl, rfl, rfl, rfl, rfl, rfl, rfl⟩)
  rw [Addition.append_nothing] at registered
  exact ⟨_, .namedStyle undefined, registered⟩

/-! ### Calls and namespaces -/

theorem Sound.yields_placeCall (sound : work.Sound keeps old start)
    (described : scope.Describes work.level) (gives : String → Dag → Prop) (made : Spanned Call) :
    ∃ addition, Producer.Yields gives work.level.id scope (.call made)
        (some (work.placeCall made.value).1) addition ∧
      work.Gains addition (work.placeCall made.value).2 := by
  obtain ⟨⟨name, arguments, style⟩, span⟩ := made
  obtain ⟨addition, prepared⟩ := (sound.openNode name.value style).prepares_gather arguments
    (describes_openNode described name.value style)
  obtain ⟨inflows, becomes, rfl, gains⟩ := sound.gains_call prepared
  exact ⟨_, .call becomes, gains⟩

/-- A namespace adds what its arguments add, one nested level, and what its statements report. -/
theorem Sound.yields_nest (sound : work.Sound keeps old start)
    (described : scope.Describes work.level) (gives : String → Dag → Prop)
    (arguments : List Argument) {statements : List (Spanned Statement)} {build : Work σ → Work σ}
    (name : Option (Spanned String)) (style : Option StyleBlock) (span : Span)
    (keeping : ∀ {start : IdSupply} {work : Work σ}, work.Sound keeps old start →
      (build work).Sound keeps old start)
    (inside : ∀ {start : IdSupply} {work : Work σ}, work.Sound keeps old start →
      Scope.empty.Describes work.level → ∃ addition,
        Statement.ListBring gives work.level.id .empty statements addition ∧
          work.Gains addition (build work)) :
    let gathered := Work.gather arguments work
    let closed := (build (gathered.2.openLevel name style)).closeLevel gathered.2.level gathered.1
    ∃ addition, Producer.Yields gives work.level.id scope
        (.level ⟨⟨name, statements, arguments, style⟩, span⟩) (some closed.1) addition ∧
      work.Gains addition closed.2 := by
  dsimp only
  obtain ⟨_, prepared⟩ := sound.prepares_gather arguments described
  obtain ⟨sound', gathers⟩ := sound.gather arguments
  generalize Work.gather arguments work = gathered at prepared sound' gathers
  have opened := sound'.openLevel name style
  have nothing : Scope.empty.Describes (gathered.2.openLevel name style).level :=
    ⟨fun _ => rfl, fun _ => rfl, rfl⟩
  obtain ⟨inner, listed, gains⟩ := inside opened nothing
  have finished := keeping opened
  generalize build (gathered.2.openLevel name style) = built at gains finished
  obtain ⟨attached, ready⟩ := sound'.attach finished gathers.sources
  obtain ⟨edges, carried, connected⟩ := attached.gains_connectAll ready
  obtain ⟨inflows, becomes, rfl, rfl⟩ := prepared.settles _ edges carried
  have placed : gathered.2.Gains
      (.ofWarnings inner.warnings ++ .ofChild (built.level.withParent gathered.2.level.id))
      { built with level := gathered.2.level.attach built.level } :=
    { gains_nothing gathered.2 with
      children := OrderedMap.values_insert_of_absent fun held =>
        sound'.finished_new finished (Dag.mem_elements.2 (.inr held))
      found := gains.found.trans (congrArg _ (List.append_nil _).symm) }
  have described' := gains.describes nothing
  have holds : (built.level.withParent gathered.2.level.id).Holds inner :=
    ⟨gains.nodes, gains.edges, described'.elements, described'.styles, described'.children⟩
  have yields : Producer.Yields gives work.level.id scope
      (.level ⟨⟨name, statements, arguments, style⟩, span⟩)
      (some (built.level.withParent gathered.2.level.id).id) _ :=
    .level holds (gains.id ▸ listed) gains.name gains.style (congrArg some prepared.gains.id) becomes
  refine ⟨_, yields, ?_⟩
  rw [Addition.append_assoc (Inflow.listPrepared inflows)]
  exact (prepared.gains.trans placed).trans connected

/-! ### Imports -/

/-- What comes of an import: a graph that was delivered, and nothing is added yet, or a warning. -/
theorem gains_fetchImport (resolve : Resolve σ) (source : Import) (work : Work σ) :
    match work.fetchImport resolve source with
    | (some graph, after) =>
      resolve.Delivers source.location.value graph ∧ work.Gains .nothing after
    | (none, after) =>
      ∃ warning : Diagnostic, warning.Fails source ∧ work.Gains (.ofWarnings [warning]) after := by
  unfold Work.fetchImport
  by_cases missing : source.location.value.isEmpty
  · rw [if_pos missing]
    exact ⟨_, ⟨.importFailure, by decide, rfl, rfl, rfl⟩, gains_report _ work⟩
  · rw [if_neg missing, Work.fetch]
    cases work.chain.mayEnter source.location.value with
    | error failure =>
        exact ⟨_, Warning.fails_importFailed failure source,
          { gains_nothing work with found := rfl }⟩
    | ok _ =>
        have used := gains_register (fun level => level.addImport source.location.value) work
          fun _ => ⟨rfl, rfl, rfl, rfl, rfl, rfl, rfl, rfl⟩
        dsimp only
        generalize given : resolve _ _ work.session = fetched
        cases result : fetched.result with
        | ok graph =>
            exact ⟨⟨_, _, (congrArg Fetched.result given).trans result⟩, { used with }⟩
        | error failure =>
            exact ⟨_, Warning.fails_importFailed failure source, { used with found := rfl }⟩

theorem Sound.gains_adopt (sound : work.Sound keeps old start) (imported : Dag)
    (name : Option (Spanned String)) :
    work.Gains (.ofChild ((imported.reidentify (work.adopt imported name).1
      ((name.map Spanned.value).getD "")).withParent work.level.id)) (work.adopt imported name).2 :=
  { gains_nothing work with
    children := OrderedMap.values_insert_of_absent fun held =>
      sound.freshId_new (Dag.mem_elements.2 (.inr held)) }

theorem Sound.yields_placeNestedImport (sound : work.Sound keeps old start)
    (resolves : resolve.Sound keeps) (scope : Scope) (source : Spanned Import) :
    ∃ addition, Producer.Yields resolve.Delivers work.level.id scope (.fetched source)
        (work.placeNestedImport resolve source.value).1 addition ∧
      work.Gains addition (work.placeNestedImport resolve source.value).2 := by
  have fetched := gains_fetchImport resolve source.value work
  have sound' := (sound.fetchImport resolves source.value).1
  unfold Work.placeNestedImport
  generalize work.fetchImport resolve source.value = result at fetched sound'
  match result, fetched with
  | (none, after), ⟨warning, fails, gains⟩ => exact ⟨_, .failed fails, gains⟩
  | (some graph, after), ⟨given, gains⟩ =>
      have adopted := gains.trans (sound'.gains_adopt graph source.value.name)
      rw [Addition.nothing_append, gains.id] at adopted
      exact ⟨_, .fetched given, adopted⟩

/-- A graph that was made after the level is taken over as a whole, behind what is there. -/
theorem gains_merge {graph : Dag} (imported : work.Imported start graph) :
    work.Gains (.ofMerged work.level.id graph) (work.onLevel fun level => level.merge graph) := by
  obtain ⟨_, level, made⟩ := imported
  obtain ⟨nodes, edges, children⟩ := Dag.entries_merge level.sound.root made.sound.root
    made.distinct (level.apart made)
  obtain ⟨elements, styles⟩ := Dag.boundVariables_eq made.sound.root.names_shared
  refine ⟨?_, ?_, ?_, ?_, ?_, ?_, ?_, ?_, (List.append_nil _).symm⟩
  · exact Dag.id_merge _ _
  · exact Dag.name_merge _ _
  · exact Dag.style_merge _ _
  · exact (congrArg (List.map Prod.snd) nodes).trans List.map_append
  · exact (congrArg (List.map Prod.snd) edges).trans List.map_append
  · rw [Addition.ofMerged, elements]
    rfl
  · rw [Addition.ofMerged, styles]
    rfl
  · refine (congrArg (List.map Prod.snd) children).trans ?_
    rw [List.map_append, List.map_map]
    rfl

theorem Sound.brings_placeImport (sound : work.Sound keeps old start) (resolves : resolve.Sound keeps)
    (scope : Scope) (source : Import) :
    ∃ addition, Statement.Brings resolve.Delivers work.level.id scope (.fetched source) addition ∧
      work.Gains addition (work.placeImport resolve source) := by
  cases named : source.name with
  | some name =>
      obtain ⟨addition, yields, gains⟩ := sound.yields_placeNestedImport resolves scope
        ⟨source, default⟩
      rw [placeImport_of_named resolve named]
      exact ⟨addition, .nested (named ▸ rfl) yields, gains⟩
  | none =>
      have fetched := gains_fetchImport resolve source work
      have sound' := sound.fetchImport resolves source
      unfold Work.placeImport
      generalize work.fetchImport resolve source = result at fetched sound'
      match result, fetched with
      | (none, after), ⟨warning, fails, gains⟩ => exact ⟨_, .failed named fails, gains⟩
      | (some graph, after), ⟨given, gains⟩ =>
          have merged := gains.trans (gains_merge (sound'.2 graph rfl))
          rw [Addition.nothing_append, gains.id] at merged
          rw [named]
          exact ⟨_, .merged named given, merged⟩

/-! ### Statements -/

mutual

/-- Every statement adds what the rules say. -/
theorem Sound.brings_place (resolves : resolve.Sound keeps) : ∀ (statement : Statement)
    {start : IdSupply} {work : Work σ} {scope : Scope}, work.Sound keeps old start →
    scope.Describes work.level → ∃ addition,
      Statement.Brings resolve.Delivers work.level.id scope statement addition ∧
        work.Gains addition (Work.place resolve statement work)
  | .call made, _, _, _, sound, described => by
      obtain ⟨addition, yields, gains⟩ := sound.yields_placeCall described resolve.Delivers
        ⟨made, default⟩
      exact ⟨addition, .call yields, gains⟩
  | .assignment targets (.call made), _, _, _, sound, described => by
      obtain ⟨addition, yields, gains⟩ := sound.yields_placeCall described resolve.Delivers made
      exact ⟨_, .assignment yields, gains.trans (gains_bindTargets targets _ _)⟩
  | .assignment targets (.level ⟨⟨name, statements, arguments, style⟩, span⟩), _, _, _, sound,
      described => by
      obtain ⟨addition, yields, gains⟩ := sound.yields_nest described resolve.Delivers arguments
        name style span (Sound.placeAll resolves statements)
        (Sound.brings_placeAll resolves statements)
      exact ⟨_, .assignment yields, gains.trans (gains_bindTargets targets _ _)⟩
  | .assignment targets (.fetched source), _, work, scope, sound, _ => by
      obtain ⟨addition, yields, gains⟩ := sound.yields_placeNestedImport resolves scope source
      rw [Work.place]
      generalize work.placeNestedImport resolve source.value = placed at yields gains
      match placed with
      | (none, after) => exact ⟨_, .dropped yields, gains⟩
      | (some id, after) => exact ⟨_, .assignment yields, gains.trans (gains_bindTargets targets _ _)⟩
  | .alias target path, _, _, _, sound, described =>
    sound.brings_placeAlias described resolve.Delivers target path
  | .namedStyle name block, _, work, scope, _, _ =>
    brings_placeStyle scope resolve.Delivers name block work
  | .styleBinding keyword tags, _, work, _, _, _ =>
    ⟨_, .styleBinding, gains_register
      (fun level => level.bindStyles keyword.value (tags.map Spanned.value)) work
      fun _ => ⟨rfl, rfl, rfl, rfl, rfl, rfl, rfl, rfl⟩⟩
  | .level ⟨name, statements, arguments, style⟩, _, _, _, sound, described => by
      obtain ⟨addition, yields, gains⟩ := sound.yields_nest described resolve.Delivers arguments
        name style default (Sound.placeAll resolves statements)
        (Sound.brings_placeAll resolves statements)
      exact ⟨addition, .level yields, gains⟩
  | .fetched source, _, _, scope, sound, _ => sound.brings_placeImport resolves scope source
  | .reference _, _, work, _, _, _ => ⟨_, .reference ⟨rfl, rfl, rfl⟩, gains_report _ work⟩
termination_by structural statement => statement

/-- Statements add what the rules say, one after the other. -/
theorem Sound.brings_placeAll (resolves : resolve.Sound keeps) :
    ∀ (statements : List (Spanned Statement)) {start : IdSupply} {work : Work σ} {scope : Scope},
      work.Sound keeps old start → scope.Describes work.level → ∃ addition,
        Statement.ListBring resolve.Delivers work.level.id scope statements addition ∧
          work.Gains addition (Work.placeAll resolve statements work)
  | [], _, work, _, _, _ => ⟨_, .nil, gains_nothing work⟩
  | ⟨statement, _⟩ :: rest, _, _, _, sound, described => by
      obtain ⟨addition, brings, gains⟩ := Sound.brings_place resolves statement sound described
      obtain ⟨later, listed, gains'⟩ := Sound.brings_placeAll resolves rest
        (sound.place resolves statement) (gains.describes described)
      rw [gains.id] at listed
      exact ⟨_, .cons brings listed, gains.trans gains'⟩
termination_by structural statements => statements

end

end Work

/-- The level of a recipe holds what its statements add and nothing else, and the warnings are those
that its statements give. No identifier of the graph is used twice. -/
theorem Recipe.build_accounted {keeps : σ → Prop} {old : List String} {resolve : Resolve σ}
    (resolves : resolve.Sound keeps) (recipe : Recipe) (chain : ImportChain) {session : Session σ}
    (sound : session.Sound keeps old) :
    let work := recipe.build resolve chain session
    work.level.ids.Nodup ∧ ∃ addition,
      Statement.ListBring resolve.Delivers work.level.id .empty recipe.statements addition ∧
        work.level.Holds addition ∧ work.found.entries = addition.warnings := by
  intro work
  refine ⟨(recipe.build_sound resolves chain sound).made.distinct, ?_⟩
  have opened : Work.Sound keeps old session.supply
      ⟨.empty session.freshId.1 "", .empty, chain, session.freshId.2⟩ :=
    ⟨.empty session.supply "", nofun, ⟨sound.silent, sound.store⟩⟩
  obtain ⟨addition, listed, gains⟩ := opened.brings_placeAll resolves recipe.statements
    (.empty session.freshId.1 "")
  have described := gains.describes (.empty session.freshId.1 "")
  exact ⟨addition, gains.id ▸ listed, ⟨gains.nodes, gains.edges, described⟩, gains.found⟩

end RecipeGraph
