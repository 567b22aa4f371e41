/-
# Building keeps levels sound

Every step of building a level keeps it sound and uses new identifiers for what it adds. A call's
node is added before the nodes of its arguments, so the order of creation says nothing about where
edges may lead. What carries the proof instead is that an element which still waits for its
arguments is idle: nothing flows out of it, no variable stands for it, and none of the arguments
gathered meanwhile comes from it. When its edges are added at last, they lead into an element with
no way out, and between elements of the level, so that no edge is ever refused.
-/

import RecipeGraph.Proofs.Build.Frame
import RecipeGraph.Proofs.Build.Warning
import RecipeGraph.Proofs.Graph.Identity

namespace RecipeGraph

variable {σ : Type}

/-- What a session keeps: nothing in its log tells of an edge that was refused, old messages apart,
and what the resolver keeps for itself has the given property. -/
structure Session.Sound (keeps : σ → Prop) (old : List String) (session : Session σ) : Prop where
  silent : ∀ message ∈ session.log, message ∈ old ∨ ∀ reason : DagError, message ≠ reason.message
  store : keeps session.store

/-- What building a level keeps: the level is sound and made since building began, and no warning
tells of an edge that was refused. -/
structure Work.Sound (keeps : σ → Prop) (old : List String) (start : IdSupply) (work : Work σ) :
    Prop where
  made : work.level.Made start work.session.supply
  quiet : ∀ diagnostic ∈ work.found.entries, diagnostic.code ≠ some .malformedEdge
  session : work.session.Sound keeps old

/-- What an import has to come to: a graph it gives is sound and made while it was resolved. -/
structure Fetched.Sound (keeps : σ → Prop) (old : List String) (start : IdSupply)
    (fetched : Fetched σ) : Prop where
  forward : start.next ≤ fetched.session.supply.next
  session : fetched.session.Sound keeps old
  made : ∀ graph, fetched.result = .ok graph → graph.Made start fetched.session.supply

/-- Every import that is asked for in a sound session comes to something sound. -/
def Resolve.Sound (keeps : σ → Prop) (resolve : Resolve σ) : Prop :=
  ∀ old location chain session, session.Sound keeps old →
    (resolve location chain session).Sound keeps old session.supply

namespace Work

variable {keeps : σ → Prop} {old : List String} {start : IdSupply} {work : Work σ}

theorem Sound.report (sound : work.Sound keeps old start) {warning : Warning}
    (harmless : warning.Harmless) : (work.report warning).Sound keeps old start := by
  obtain ⟨made, quiet, session⟩ := sound
  refine ⟨?_, ?_, ?_, ?_⟩
  · unfold Work.report
    split
    · exact made
    · exact made
  · intro diagnostic held
    rcases List.mem_append.1 held with old | new
    · exact quiet diagnostic old
    · exact List.mem_singleton.1 new ▸ harmless.code
  · unfold Work.report
    split
    · intro message held
      rcases List.mem_append.1 held with before | new
      · exact session.silent message before
      · exact .inr (List.mem_singleton.1 new ▸ harmless.message)
    · exact session.silent
  · unfold Work.report
    split
    · exact session.store
    · exact session.store

/-- A change of the level alone keeps everything sound if it keeps the level made. -/
theorem Sound.onLevel (sound : work.Sound keeps old start) {change : Dag → Dag}
    (made : (change work.level).Made start work.session.supply) :
    (work.onLevel change).Sound keeps old start :=
  ⟨made, sound.quiet, sound.session⟩

/-- What is taken from the supply next is nowhere in the level yet. -/
theorem Sound.freshId_unused (sound : work.Sound keeps old start) :
    work.freshId.1 ∉ work.level.ids :=
  sound.made.not_mem_of_between work.session.supply.between_take

theorem Sound.freshId_new (sound : work.Sound keeps old start) :
    work.freshId.1 ∉ work.level.elements := fun held =>
  sound.freshId_unused (sound.made.elements_subset held)

theorem Sound.openNode (sound : work.Sound keeps old start) (name : String) (style : Option StyleBlock) :
    (work.openNode name style).2.Sound keeps old start :=
  ⟨sound.made.addNode name (elementStyle style), sound.quiet, sound.session.silent,
    sound.session.store⟩

/-! ### Adding the edges of arguments -/

/-- What has to be known of arguments before their edges into an element are added. -/
structure Ready (work : Work σ) (target : Id) (incoming : List Incoming) : Prop where
  into : target ∈ work.level.elements
  noWayOut : ∀ edge ∈ work.level.edges.values, edge.source ≠ target
  sources : ∀ argument ∈ incoming, argument.source ∈ work.level.elements
  apart : ∀ argument ∈ incoming, argument.source ≠ target

/-- What adding edges into an element comes to: the elements stay, and an idle element from which
no argument comes is idle afterwards. -/
structure Connects (before : Work σ) (incoming : List Incoming) (after : Work σ) : Prop where
  forward : before.session.supply.next ≤ after.session.supply.next
  elements : after.level.elements = before.level.elements
  idle : ∀ id, before.level.Idle id → (∀ argument ∈ incoming, argument.source ≠ id) →
    after.level.Idle id

/-- Between elements of the level an edge is never refused. -/
theorem connect_eq {target : Id} {incoming : Incoming}
    (source : incoming.source ∈ work.level.elements) (inside : target ∈ work.level.elements) :
    work.connect target incoming = work.freshId.2.onLevel fun level =>
      { level with
        edges := level.edges.insert work.freshId.1 (edgeOf work.freshId.1 target incoming) } := by
  have accepted : work.freshId.2.level.addEdge (edgeOf work.freshId.1 target incoming) = _ :=
    Dag.addEdge_eq source inside
  unfold edgeOf at accepted
  simp only [connect, accepted]
  rfl

theorem Sound.connect (sound : work.Sound keeps old start) {target : Id} {incoming : Incoming}
    {rest : List Incoming} (ready : work.Ready target (incoming :: rest)) :
    (work.connect target incoming).Sound keeps old start ∧
      (work.connect target incoming).Ready target rest ∧
      work.Connects [incoming] (work.connect target incoming) := by
  have source := ready.sources _ List.mem_cons_self
  have apart := ready.apart _ List.mem_cons_self
  rw [connect_eq source ready.into]
  refine ⟨⟨?_, sound.quiet, sound.session.silent, sound.session.store⟩, ?_, ?_⟩
  · exact sound.made.insertEdge (edgeOf work.freshId.1 target incoming) rfl source
      ready.into ready.noWayOut apart
  · refine ⟨ready.into, ?_, fun argument held => ready.sources _ (List.mem_cons_of_mem _ held),
      fun argument held => ready.apart _ (List.mem_cons_of_mem _ held)⟩
    intro edge held
    rcases OrderedMap.mem_values_insert held with rfl | old
    · exact apart
    · exact ready.noWayOut edge old
  · refine ⟨work.session.supply.next_le_take, rfl, fun id idle others => ⟨?_, idle.bound_nowhere,
      idle.no_child⟩⟩
    intro edge held
    rcases OrderedMap.mem_values_insert held with rfl | old
    · exact others incoming List.mem_cons_self
    · exact idle.feeds_nothing edge old

theorem Sound.connectAll (sound : work.Sound keeps old start) (target : Id) (incoming : List Incoming)
    (ready : work.Ready target incoming) :
    (work.connectAll target incoming).Sound keeps old start ∧
      work.Connects incoming (work.connectAll target incoming) := by
  induction incoming generalizing work with
  | nil => exact ⟨sound, Nat.le_refl _, rfl, fun _ idle _ => idle⟩
  | cons argument rest step =>
      obtain ⟨sound', ready', here⟩ := sound.connect ready
      obtain ⟨sound'', later⟩ := step sound' ready'
      refine ⟨sound'', Nat.le_trans here.forward later.forward,
        later.elements.trans here.elements, fun id idle others => ?_⟩
      have idle' := here.idle id idle fun other held =>
        List.mem_singleton.1 held ▸ others argument List.mem_cons_self
      exact later.idle id idle' fun other held => others other (List.mem_cons_of_mem _ held)

/-! ### Gathering arguments -/

/-- What gathering arguments comes to: elements stay elements, the arguments come from elements, and
an idle element stays idle and is not among the sources. -/
structure Gathers (before : Work σ) (incoming : List Incoming) (after : Work σ) : Prop where
  forward : before.session.supply.next ≤ after.session.supply.next
  kept : before.level.elements ⊆ after.level.elements
  sources : ∀ argument ∈ incoming, argument.source ∈ after.level.elements
  idle : ∀ id ∈ before.level.elements, before.level.Idle id →
    after.level.Idle id ∧ ∀ argument ∈ incoming, argument.source ≠ id

theorem Gathers.refl (work : Work σ) : work.Gathers [] work :=
  ⟨Nat.le_refl _, fun _ => id, nofun, fun _ _ idle => ⟨idle, nofun⟩⟩

theorem Gathers.append {middle after : Work σ} {first second : List Incoming}
    (one : work.Gathers first middle) (two : middle.Gathers second after) :
    work.Gathers (first ++ second) after := by
  refine ⟨Nat.le_trans one.forward two.forward, fun id held => two.kept (one.kept held), ?_, ?_⟩
  · intro argument held
    rcases List.mem_append.1 held with old | new
    · exact two.kept (one.sources argument old)
    · exact two.sources argument new
  · intro id held idle
    obtain ⟨idle', before⟩ := one.idle id held idle
    obtain ⟨idle'', now⟩ := two.idle id (one.kept held) idle'
    exact ⟨idle'', fun argument inside => (List.mem_append.1 inside).elim (before argument)
      (now argument)⟩

theorem Sound.lookUp (sound : work.Sound keeps old start) (path : Spanned QualifiedPath) :
    (work.lookUp path).2.Sound keeps old start ∧
      work.Gathers (work.lookUp path).1.toList (work.lookUp path).2 := by
  unfold Work.lookUp
  split
  · refine ⟨sound.report (Warning.harmless_unresolved path), ?_, fun _ => id, nofun, ?_⟩
    · exact Nat.le_of_eq (congrArg IdSupply.next (supply_report _ _).symm)
    · exact fun _ _ idle => ⟨idle, nofun⟩
  · next source found =>
      refine ⟨sound, Nat.le_refl _, fun _ => id, ?_, fun id _ idle => ⟨idle, ?_⟩⟩
      · intro argument held
        obtain rfl := List.mem_singleton.1 held
        exact sound.made.sound.root.producer?_mem found
      · intro argument held
        obtain rfl := List.mem_singleton.1 held
        exact sound.made.sound.root.producer?_ne found idle

/-- The node of a call is idle as long as its arguments are being gathered. -/
theorem Sound.openNode_idle (sound : work.Sound keeps old start) (name : String)
    (style : Option StyleBlock) :
    (work.openNode name style).1 ∉ work.level.elements ∧
      (work.openNode name style).1 ∈ (work.openNode name style).2.level.elements ∧
      (work.openNode name style).2.level.Idle (work.openNode name style).1 ∧
      work.Gathers [] (work.openNode name style).2 := by
  have root := sound.made.sound.root
  have new := sound.freshId_new
  refine ⟨new, Dag.mem_elements_addNode.2 (.inl rfl), ⟨?_, ?_, ?_⟩, ⟨?_, ?_, nofun, ?_⟩⟩
  · exact fun edge held same => new (same ▸ (root.edges_between edge held).1)
  · exact fun bound held same => new (same ▸ root.variables_bound bound held)
  · exact fun held => new (Dag.mem_elements.2 (.inr held))
  · exact work.session.supply.next_le_take
  · exact fun id held => Dag.mem_elements_addNode.2 (.inr held)
  · exact fun id _ idle => ⟨⟨idle.feeds_nothing, idle.bound_nowhere, idle.no_child⟩, nofun⟩

/-- Once the arguments of a call have been gathered, its edges can be added. -/
theorem Sound.ready_openNode (sound : work.Sound keeps old start) {name : String}
    {style : Option StyleBlock} {gathered : Work σ} {incoming : List Incoming}
    (gathers : (work.openNode name style).2.Gathers incoming gathered) :
    gathered.Ready (work.openNode name style).1 incoming := by
  obtain ⟨_, here, idle, _⟩ := sound.openNode_idle name style
  obtain ⟨idle', others⟩ := gathers.idle _ here idle
  exact ⟨gathers.kept here, idle'.feeds_nothing, gathers.sources, others⟩

/-- What flows from a call flows from its node. -/
theorem Sound.finishCall (sound : work.Sound keeps old start) {name : String} {style : Option StyleBlock}
    {gathered : Work σ} {incoming : List Incoming} (sound' : gathered.Sound keeps old start)
    (gathers : (work.openNode name style).2.Gathers incoming gathered) {produced : Incoming}
    (source : produced.source = (work.openNode name style).1) :
    (gathered.connectAll (work.openNode name style).1 incoming).Sound keeps old start ∧
      work.Gathers [produced] (gathered.connectAll (work.openNode name style).1 incoming) := by
  obtain ⟨new, here, _, opened⟩ := sound.openNode_idle name style
  obtain ⟨sound'', connects⟩ := sound'.connectAll _ _ (sound.ready_openNode gathers)
  have before := opened.append gathers
  refine ⟨sound'', Nat.le_trans before.forward connects.forward, ?_, ?_, ?_⟩
  · intro id held
    rw [connects.elements]
    exact before.kept held
  · intro argument held
    obtain rfl := List.mem_singleton.1 held
    rw [connects.elements, source]
    exact gathers.kept here
  · intro id held idle
    obtain ⟨still, apart⟩ := before.idle id held idle
    refine ⟨connects.idle id still apart, fun argument inside => ?_⟩
    obtain rfl := List.mem_singleton.1 inside
    exact fun same => new (source ▸ same ▸ held)

mutual

theorem Sound.gatherOne : ∀ (argument : Argument) {work : Work σ}, work.Sound keeps old start →
    (gatherOne argument work).2.Sound keeps old start ∧
      work.Gathers (gatherOne argument work).1.toList (gatherOne argument work).2
  | .call ⟨⟨name, arguments, style⟩, _⟩, _, sound =>
    have gathered := Sound.gather arguments (sound.openNode name.value style)
    sound.finishCall gathered.1 gathered.2 rfl
  | .reference path, _, sound => sound.lookUp path
termination_by structural argument => argument

/-- Gathering arguments keeps everything sound, and every argument comes from an element of the
level. -/
theorem Sound.gather : ∀ (arguments : List Argument) {work : Work σ}, work.Sound keeps old start →
    (gather arguments work).2.Sound keeps old start ∧
      work.Gathers (gather arguments work).1 (gather arguments work).2
  | [], work, sound => ⟨sound, .refl work⟩
  | argument :: rest, _, sound =>
    have first := Sound.gatherOne argument sound
    have others := Sound.gather rest first.1
    ⟨others.1, first.2.append others.2⟩
termination_by structural arguments => arguments

end

/-! ### Steps of statements -/

/-- A call is placed the way it is gathered. -/
theorem Sound.placeCall (sound : work.Sound keeps old start) (made : Call) :
    (work.placeCall made).2.Sound keeps old start ∧
      (work.placeCall made).1 ∈ (work.placeCall made).2.level.elements := by
  obtain ⟨name, arguments, style⟩ := made
  obtain ⟨sound', gathers⟩ := sound.gatherOne (.call ⟨⟨name, arguments, style⟩, default⟩)
  exact ⟨sound', gathers.sources _ (List.mem_singleton.2 rfl)⟩

theorem Sound.bindTarget (sound : work.Sound keeps old start) {id : Id} (held : id ∈ work.level.elements)
    (target : Target) : (work.bindTarget id target).Sound keeps old start :=
  sound.onLevel (sound.made.congr (sound.made.sound.bind _ held _) (by
    rw [Dag.ids_eq, Dag.ids_eq]
    rfl))

theorem Sound.bindTargets (sound : work.Sound keeps old start) {id : Id}
    (held : id ∈ work.level.elements) (targets : List Target) :
    (work.bindTargets targets id).Sound keeps old start := by
  induction targets generalizing work with
  | nil => exact sound
  | cons target rest step => exact step (sound.bindTarget held target) held

theorem Sound.placeAlias (sound : work.Sound keeps old start) (target : Target)
    (path : Spanned QualifiedPath) : (work.placeAlias target path).Sound keeps old start := by
  unfold Work.placeAlias
  split
  · exact sound.report (Warning.harmless_unresolved path)
  · next id found => exact sound.bindTarget (sound.made.sound.root.producer?_mem found) target

/-- A change of the registries alone keeps everything sound. -/
theorem Sound.register (sound : work.Sound keeps old start) (change : Dag → Dag)
    (kept : ∀ dag, (change dag).id = dag.id ∧ (change dag).nodes = dag.nodes ∧
      (change dag).edges = dag.edges ∧ (change dag).children = dag.children ∧
      (change dag).variableIds = dag.variableIds ∧
      (change dag).variableStyles = dag.variableStyles) :
    (work.onLevel change).Sound keeps old start := by
  obtain ⟨id, nodes, edges, children, ids, styles⟩ := kept work.level
  refine sound.onLevel (sound.made.congr
    (sound.made.sound.congr id nodes edges children ids styles) ?_)
  rw [Dag.ids_eq, Dag.ids_eq, Dag.innerIds, Dag.innerIds, id, nodes, edges, children]

theorem Sound.placeStyle (sound : work.Sound keeps old start) (name : Spanned String)
    (block : StyleBlock) : (work.placeStyle name block).Sound keeps old start := by
  have reported : ∀ (tags : List (Spanned QualifiedPath)) {work : Work σ}, work.Sound keeps old start →
      (tags.foldl (fun work tag => work.report (.undefinedStyleTag tag)) work).Sound keeps old start := by
    intro tags
    induction tags with
    | nil => exact fun sound => sound
    | cons tag rest step =>
        exact fun sound => step (sound.report (Warning.harmless_undefinedStyleTag tag))
  exact (reported _ sound).register
    (fun level => level.setStyle name.value (block.flatten work.level).properties)
    fun _ => ⟨rfl, rfl, rfl, rfl, rfl, rfl⟩

theorem Sound.placeBinding (sound : work.Sound keeps old start) (keyword : Spanned String)
    (tags : List (Spanned QualifiedPath)) : (work.placeBinding keyword tags).Sound keeps old start :=
  sound.register _ fun _ => ⟨rfl, rfl, rfl, rfl, rfl, rfl⟩

/-! ### Nested levels -/

/-- A level just opened is made of one new identifier. -/
theorem Sound.openLevel (sound : work.Sound keeps old start) (name : Option (Spanned String))
    (style : Option StyleBlock) :
    (work.openLevel name style).Sound keeps old work.session.supply := by
  have empty := Dag.Made.empty work.session.supply ((name.map Spanned.value).getD "")
  refine ⟨empty.congr (empty.sound.congr rfl rfl rfl rfl rfl rfl) ?_, sound.quiet,
    sound.session.silent, sound.session.store⟩
  rw [Dag.ids_eq, Dag.ids_eq]
  rfl

/-- A finished level is new to the level around it. -/
theorem Sound.finished_new {outer : Work σ} (sound : outer.Sound keeps old start) {inner : Work σ}
    (finished : inner.Sound keeps old outer.session.supply) :
    inner.level.id ∉ outer.level.elements := fun held =>
  sound.made.apart finished.made _ (sound.made.elements_subset held) inner.level.id_mem_ids

/-- A finished level is nested as a new element. The arguments were gathered before the level was
opened, so none of them comes from it, and their edges can be added. -/
theorem Sound.attach {outer : Work σ} (sound : outer.Sound keeps old start) {inner : Work σ}
    (finished : inner.Sound keeps old outer.session.supply) {incoming : List Incoming}
    (sources : ∀ argument ∈ incoming, argument.source ∈ outer.level.elements) :
    Sound keeps old start { inner with level := outer.level.attach inner.level } ∧
      Ready { inner with level := outer.level.attach inner.level } inner.level.id incoming := by
  have new := sound.finished_new finished
  refine ⟨⟨sound.made.attach finished.made, finished.quiet, finished.session⟩, ?_⟩
  exact
    { into := Dag.mem_elements_attach.2 (.inl rfl)
      noWayOut := fun edge held same =>
        new (same ▸ (sound.made.sound.root.edges_between edge held).1)
      sources := fun argument held => Dag.mem_elements_attach.2 (.inr (sources argument held))
      apart := fun argument held same => new (same ▸ sources argument held) }

theorem Sound.closeLevel {outer : Work σ} (sound : outer.Sound keeps old start) {inner : Work σ}
    (finished : inner.Sound keeps old outer.session.supply) {incoming : List Incoming}
    (sources : ∀ argument ∈ incoming, argument.source ∈ outer.level.elements) :
    (inner.closeLevel outer.level incoming).2.Sound keeps old start ∧
      (inner.closeLevel outer.level incoming).1 ∈
        (inner.closeLevel outer.level incoming).2.level.elements := by
  obtain ⟨attached, ready⟩ := sound.attach finished sources
  obtain ⟨sound', connects⟩ := attached.connectAll inner.level.id incoming ready
  exact ⟨sound', connects.elements ▸ ready.into⟩

/-! ### Imports -/

section Imports

variable {resolve : Resolve σ}

/-- An imported graph is made after the level that imports it, up to now. -/
def Imported (work : Work σ) (start : IdSupply) (graph : Dag) : Prop :=
  ∃ middle, work.level.Made start middle ∧ graph.Made middle work.session.supply

theorem Sound.fetch (sound : work.Sound keeps old start) (resolves : resolve.Sound keeps)
    (location : String) :
    (work.fetch resolve location).2.Sound keeps old start ∧
      ∀ graph, (work.fetch resolve location).1 = .ok graph →
        (work.fetch resolve location).2.Imported start graph := by
  unfold Work.fetch
  split
  · exact ⟨⟨sound.made, sound.quiet, sound.session⟩, fun _ impossible => nomatch impossible⟩
  · have fetched := resolves old location ((work.chain.recordImport location).push location)
      work.session sound.session
    have level : (work.level.addImport location).Made start work.session.supply :=
      (sound.register (fun level => level.addImport location)
        fun _ => ⟨rfl, rfl, rfl, rfl, rfl, rfl⟩).made
    exact ⟨⟨level.extend fetched.forward, sound.quiet, fetched.session⟩,
      fun graph given => ⟨work.session.supply, level, fetched.made graph given⟩⟩

theorem Sound.fetchImport (sound : work.Sound keeps old start) (resolves : resolve.Sound keeps)
    (source : Import) :
    (work.fetchImport resolve source).2.Sound keeps old start ∧
      ∀ graph, (work.fetchImport resolve source).1 = some graph →
        (work.fetchImport resolve source).2.Imported start graph := by
  unfold Work.fetchImport
  split
  · exact ⟨sound.report (Warning.harmless_noLocation _), fun _ impossible => nomatch impossible⟩
  · have fetched := sound.fetch resolves source.location.value
    split
    · next imported work' same =>
        rw [same] at fetched
        exact ⟨fetched.1, fun graph given => fetched.2 graph (congrArg _ (Option.some.inj given))⟩
    · next failure work' same =>
        rw [same] at fetched
        exact ⟨fetched.1.report (Warning.harmless_importFailed _ _),
          fun _ impossible => nomatch impossible⟩

theorem Sound.adopt (sound : work.Sound keeps old start) {imported : Dag}
    (new : work.Imported start imported) (name : Option (Spanned String)) :
    (work.adopt imported name).2.Sound keeps old start ∧
      (work.adopt imported name).1 ∈ (work.adopt imported name).2.level.elements := by
  obtain ⟨middle, level, graph⟩ := new
  exact ⟨⟨level.attach (graph.reidentify _), sound.quiet, sound.session.silent,
    sound.session.store⟩, Dag.mem_elements_attach.2 (.inl rfl)⟩

theorem Sound.placeNestedImport (sound : work.Sound keeps old start) (resolves : resolve.Sound keeps)
    (source : Import) :
    (work.placeNestedImport resolve source).2.Sound keeps old start ∧
      ∀ id, (work.placeNestedImport resolve source).1 = some id →
        id ∈ (work.placeNestedImport resolve source).2.level.elements := by
  have fetched := sound.fetchImport resolves source
  unfold Work.placeNestedImport
  split
  · next work' same =>
      rw [same] at fetched
      exact ⟨fetched.1, fun _ impossible => nomatch impossible⟩
  · next imported work' same =>
      rw [same] at fetched
      obtain ⟨sound', held⟩ := fetched.1.adopt (fetched.2 imported rfl) source.name
      exact ⟨sound', fun id given => Option.some.inj given ▸ held⟩

theorem Sound.placeImport (sound : work.Sound keeps old start) (resolves : resolve.Sound keeps)
    (source : Import) : (work.placeImport resolve source).Sound keeps old start := by
  have fetched := sound.fetchImport resolves source
  unfold Work.placeImport
  split
  · next work' same =>
      rw [same] at fetched
      exact fetched.1
  · next imported work' same =>
      rw [same] at fetched
      split
      · exact (fetched.1.adopt (fetched.2 imported rfl) source.name).1
      · obtain ⟨middle, level, graph⟩ := fetched.2 imported rfl
        exact fetched.1.onLevel (level.merge graph)

/-! ### Statements -/

/-- A namespace is built inside and nested outside. -/
theorem Sound.nest (sound : work.Sound keeps old start) (arguments : List Argument)
    {build : Work σ → Work σ} (name : Option (Spanned String)) (style : Option StyleBlock)
    (inside : ∀ {start : IdSupply} {work : Work σ}, work.Sound keeps old start →
      (build work).Sound keeps old start) :
    let gathered := Work.gather arguments work
    let closed := (build (gathered.2.openLevel name style)).closeLevel gathered.2.level gathered.1
    closed.2.Sound keeps old start ∧ closed.1 ∈ closed.2.level.elements := by
  obtain ⟨sound', gathers⟩ := sound.gather arguments
  exact sound'.closeLevel (inside (sound'.openLevel name style)) gathers.sources

mutual

/-- One statement keeps everything sound, whatever kind of statement it is. -/
theorem Sound.place (resolves : resolve.Sound keeps) : ∀ (statement : Statement) {start : IdSupply}
    {work : Work σ}, work.Sound keeps old start → (Work.place resolve statement work).Sound keeps old start
  | .call made, _, _, sound => (sound.placeCall made).1
  | .assignment targets (.call made), _, _, sound =>
    (sound.placeCall made.value).1.bindTargets (sound.placeCall made.value).2 targets
  | .assignment targets (.level ⟨⟨name, statements, arguments, style⟩, _⟩), _, _, sound =>
    have nested := sound.nest arguments name style
      fun inside => Sound.placeAll resolves statements inside
    nested.1.bindTargets nested.2 targets
  | .assignment targets (.fetched source), _, work, sound => by
      have placed := sound.placeNestedImport resolves source.value
      rw [Work.place]
      split
      · next work' same =>
          rw [same] at placed
          exact placed.1
      · next id work' same =>
          rw [same] at placed
          exact placed.1.bindTargets (placed.2 id rfl) targets
  | .alias target path, _, _, sound => sound.placeAlias target path
  | .namedStyle name style, _, _, sound => sound.placeStyle name style
  | .styleBinding keyword tags, _, _, sound => sound.placeBinding keyword tags
  | .level ⟨name, statements, arguments, style⟩, _, _, sound =>
    (sound.nest arguments name style fun inside => Sound.placeAll resolves statements inside).1
  | .fetched source, _, _, sound => sound.placeImport resolves source
  | .reference path, _, _, sound => sound.report (Warning.harmless_noEffect path)
termination_by structural statement => statement

/-- Any number of statements keeps everything sound. -/
theorem Sound.placeAll (resolves : resolve.Sound keeps) :
    ∀ (statements : List (Spanned Statement)) {start : IdSupply} {work : Work σ},
      work.Sound keeps old start → (Work.placeAll resolve statements work).Sound keeps old start
  | [], _, _, sound => sound
  | ⟨statement, _⟩ :: rest, _, _, sound =>
    Sound.placeAll resolves rest (Sound.place resolves statement sound)
termination_by structural statements => statements

end

end Imports

end Work

/-- The graph of a recipe is sound and made while it was built, whatever the chain. -/
theorem Recipe.build_sound {keeps : σ → Prop} {old : List String} {resolve : Resolve σ} (resolves : resolve.Sound keeps)
    (recipe : Recipe) (chain : ImportChain) {session : Session σ} (sound : session.Sound keeps old) :
    (recipe.build resolve chain session).Sound keeps old session.supply :=
  Work.Sound.placeAll resolves recipe.statements
    ⟨.empty session.supply "", nofun, ⟨sound.silent, sound.store⟩⟩

end RecipeGraph
