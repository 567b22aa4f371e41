/-
# Two builders in lockstep

The same statements may be built twice, in two sessions, with two ways to resolve imports. As long
as every import comes to the same in both, the levels under construction correspond: what one
builder mints is paired with what the other one mints at the same step, and the pairing only grows.
The diagnostics agree exactly, since identifiers do not show in them.

The two chains need not be equal, and the builders need not stay in lockstep to the end. The first
builder may escape, for good, into a state from which nothing is claimed any more.
-/

import RecipeGraph.Proofs.Build.Attempts
import RecipeGraph.Proofs.Graph.Parallel

namespace RecipeGraph

open Relator (BiUnique)

/-! ### Pairing what two supplies hand out -/

/-- A one-to-one relation between identifiers handed out in one stretch of work and identifiers
handed out in another. -/
structure Pairing (R : Id → Id → Prop) (start stop start' stop' : IdSupply) : Prop where
  unique : BiUnique R
  first : ∀ id id', R id id' → IdSupply.Between start stop id
  second : ∀ id id', R id id' → IdSupply.Between start' stop' id'
  forward : start.next ≤ stop.next
  forward' : start'.next ≤ stop'.next

namespace Pairing

variable {R S : Id → Id → Prop} {start middle stop start' middle' stop' : IdSupply}

/-- The next identifiers of two supplies are paired with each other. -/
theorem one (supply supply' : IdSupply) :
    Pairing (fun id id' => id = supply.take.1 ∧ id' = supply'.take.1) supply supply.take.2 supply'
      supply'.take.2 where
  unique := ⟨fun _ _ _ one two => one.1.trans two.1.symm, fun _ _ _ one two =>
    one.2.trans two.2.symm⟩
  first := fun _ _ held => held.1 ▸ supply.between_take
  second := fun _ _ held => held.2 ▸ supply'.between_take
  forward := supply.next_le_take
  forward' := supply'.next_le_take

/-- Pairings of two stretches that follow each other make one pairing. -/
theorem join (one : Pairing R start middle start' middle') (two : Pairing S middle stop middle' stop') :
    Pairing (fun id id' => R id id' ∨ S id id') start stop start' stop' where
  unique := by
    constructor
    · rintro id other id' (here | here) (there | there)
      · exact one.unique.1 here there
      · exact absurd (two.second _ _ there) (one.second _ _ here).apart
      · exact absurd (two.second _ _ here) (one.second _ _ there).apart
      · exact two.unique.1 here there
    · rintro id id' other' (here | here) (there | there)
      · exact one.unique.2 here there
      · exact absurd (two.first _ _ there) (one.first _ _ here).apart
      · exact absurd (two.first _ _ here) (one.first _ _ there).apart
      · exact two.unique.2 here there
  first := fun id id' held => held.elim
    (fun held => (one.first id id' held).widen (Nat.le_refl _) two.forward)
    fun held => (two.first id id' held).widen one.forward (Nat.le_refl _)
  second := fun id id' held => held.elim
    (fun held => (one.second id id' held).widen (Nat.le_refl _) two.forward')
    fun held => (two.second id id' held).widen one.forward' (Nat.le_refl _)
  forward := Nat.le_trans one.forward two.forward
  forward' := Nat.le_trans one.forward' two.forward'

/-- Supplies may go on without anything being paired. -/
theorem later (pairing : Pairing R start middle start' middle') (forward : middle.next ≤ stop.next)
    (forward' : middle'.next ≤ stop'.next) : Pairing R start stop start' stop' where
  unique := pairing.unique
  first := fun id id' held => (pairing.first id id' held).widen (Nat.le_refl _) forward
  second := fun id id' held => (pairing.second id id' held).widen (Nat.le_refl _) forward'
  forward := Nat.le_trans pairing.forward forward
  forward' := Nat.le_trans pairing.forward' forward'

theorem swap (pairing : Pairing R start stop start' stop') :
    Pairing (flip R) start' stop' start stop where
  unique := ⟨fun _ _ _ one two => pairing.unique.2 one two,
    fun _ _ _ one two => pairing.unique.1 one two⟩
  first := fun id id' held => pairing.second id' id held
  second := fun id id' held => pairing.first id' id held
  forward := pairing.forward'
  forward' := pairing.forward

/-- Paired identifiers were all minted, and minted identifiers print alike. -/
theorem render_eq (pairing : Pairing R start stop start' stop') (id id' : Id) (held : R id id') :
    id.render = id'.render := by
  rw [(pairing.first id id' held).render_eq, (pairing.second id id' held).render_eq]

end Pairing

/-- An argument that comes from corresponding elements, with the same edge to be. -/
structure Incoming.Corresponds (R : Id → Id → Prop) (incoming other : Incoming) : Prop where
  source : R incoming.source other.source
  name : incoming.name = other.name
  style : incoming.style = other.style
  span : incoming.span = other.span

theorem Incoming.Corresponds.mono {R S : Id → Id → Prop} {incoming other : Incoming}
    (same : incoming.Corresponds R other) (wider : ∀ id id', R id id' → S id id') :
    incoming.Corresponds S other :=
  ⟨wider _ _ same.source, same.name, same.style, same.span⟩

variable {σ τ : Type}

namespace Work

/-- Two builders at the same point: their levels correspond under a pairing of what was handed out
since their starts, and they have found the same. -/
structure Matched (R : Id → Id → Prop) (start start' : IdSupply) (parent parent' : Option Id)
    (work : Work σ) (other : Work τ) : Prop where
  pairing : Pairing R start work.session.supply start' other.session.supply
  level : work.level.Corresponds R other.level
  found : work.found = other.found
  placed : work.level.parent = parent
  placed' : other.level.parent = parent'

/-- Two builders are at the same point under a pairing that extends the given one. -/
def MatchedBeyond (R : Id → Id → Prop) (start start' : IdSupply) (parent parent' : Option Id)
    (work : Work σ) (other : Work τ) (also : (Id → Id → Prop) → Prop) : Prop :=
  ∃ S, (∀ id id', R id id' → S id id') ∧ Matched S start start' parent parent' work other ∧ also S

section Matched

variable {R S : Id → Id → Prop} {start start' : IdSupply} {parent parent' : Option Id}
  {work : Work σ} {other : Work τ}

theorem Matched.unique (matched : Matched R start start' parent parent' work other) : BiUnique R :=
  matched.pairing.unique

/-- The same warning may be given by both. -/
theorem Matched.report (matched : Matched R start start' parent parent' work other)
    {warning warning' : Warning} (same : warning.diagnostic = warning'.diagnostic) :
    Matched R start start' parent parent' (work.report warning) (other.report warning') where
  pairing := by
    rw [supply_report, supply_report]
    exact matched.pairing
  level := matched.level
  found := congrArg₂ DiagnosticLog.emit matched.found same
  placed := matched.placed
  placed' := matched.placed'

/-- A change of both levels that keeps them corresponding. -/
theorem Matched.onLevel (matched : Matched R start start' parent parent' work other)
    (change change' : Dag → Dag) (level : (change work.level).Corresponds R (change' other.level))
    (placed : (change work.level).parent = work.level.parent)
    (placed' : (change' other.level).parent = other.level.parent) :
    Matched R start start' parent parent' (work.onLevel change) (other.onLevel change') :=
  ⟨matched.pairing, level, matched.found, placed.trans matched.placed,
    placed'.trans matched.placed'⟩

/-- What the builders mint next is paired. -/
theorem Matched.freshId (matched : Matched R start start' parent parent' work other) :
    MatchedBeyond R start start' parent parent' work.freshId.2 other.freshId.2
      fun S => S work.freshId.1 other.freshId.1 :=
  ⟨_, fun _ _ => .inl, ⟨matched.pairing.join (.one _ _), matched.level.mono fun _ _ => .inl,
    matched.found, matched.placed, matched.placed'⟩, .inr ⟨rfl, rfl⟩⟩

theorem Matched.openNode (matched : Matched R start start' parent parent' work other) (name : String)
    (style : Option StyleBlock) :
    MatchedBeyond R start start' parent parent' (work.openNode name style).2
      (other.openNode name style).2 fun S => S (work.openNode name style).1
        (other.openNode name style).1 := by
  obtain ⟨S, wider, matched', same⟩ := matched.freshId
  have node : Node.Corresponds S ⟨work.freshId.1, name, elementStyle style⟩
      ⟨other.freshId.1, name, elementStyle style⟩ := ⟨same, rfl, rfl⟩
  have level := matched'.level.addNode matched'.unique node
  exact ⟨S, wider, matched'.onLevel (fun level => level.addNode ⟨work.freshId.1, name, _⟩)
    (fun level => level.addNode ⟨other.freshId.1, name, _⟩) level rfl rfl, same⟩

/-! ### Edges and arguments -/

theorem Matched.connect (matched : Matched R start start' parent parent' work other)
    {target target' : Id} (into : R target target') {incoming incoming' : Incoming}
    (same : incoming.Corresponds R incoming') :
    MatchedBeyond R start start' parent parent' (work.connect target incoming)
      (other.connect target' incoming') fun _ => True := by
  obtain ⟨S, wider, matched', minted⟩ := matched.freshId
  have edge : (edgeOf work.freshId.1 target incoming).Corresponds S
      (edgeOf other.freshId.1 target' incoming') :=
    ⟨minted, same.name, wider _ _ same.source, wider _ _ into, same.style⟩
  refine ⟨S, wider, ?_, trivial⟩
  unfold Work.connect
  rcases matched'.level.addEdge matched'.unique edge matched'.pairing.render_eq
    with ⟨level, level', added, added', related, placed, placed'⟩ | ⟨_, _, refused, refused', told⟩
  · unfold edgeOf at added added'
    simp only [added, added']
    exact matched'.onLevel (fun _ => level) (fun _ => level') related placed placed'
  · unfold edgeOf at refused refused'
    simp only [refused, refused']
    refine matched'.report ?_
    simp only [Warning.diagnostic, told, same.span]

theorem Matched.connectAll (matched : Matched R start start' parent parent' work other)
    {target target' : Id} (into : R target target') {incoming incoming' : List Incoming}
    (same : List.Forall₂ (Incoming.Corresponds R) incoming incoming') :
    MatchedBeyond R start start' parent parent' (work.connectAll target incoming)
      (other.connectAll target' incoming') fun _ => True := by
  induction incoming generalizing R work other incoming' with
  | nil =>
      cases same with
      | nil => exact ⟨R, fun _ _ held => held, matched, trivial⟩
  | cons argument rest step =>
      obtain ⟨argument', rest', here, later, rfl⟩ := List.forall₂_cons_left_iff.1 same
      obtain ⟨S, wider, matched', _⟩ := matched.connect into here
      obtain ⟨T, wider', matched'', _⟩ :=
        step matched' (wider _ _ into) (later.imp fun _ _ both => both.mono wider)
      exact ⟨T, fun _ _ held => wider' _ _ (wider _ _ held), matched'', trivial⟩

theorem Matched.lookUp (matched : Matched R start start' parent parent' work other)
    (path : Spanned QualifiedPath) :
    Matched R start start' parent parent' (work.lookUp path).2 (other.lookUp path).2 ∧
      List.Forall₂ (Incoming.Corresponds R) (work.lookUp path).1.toList
        (other.lookUp path).1.toList := by
  have found := matched.level.producer? matched.unique path.value
  have style : work.level.variableStyle? path.value = other.level.variableStyle? path.value :=
    matched.level.variableStyleAt?_eq matched.unique path.value.segments
  unfold Work.lookUp
  rw [style]
  generalize work.level.producer? path.value = source at found
  generalize other.level.producer? path.value = source' at found
  cases found with
  | none => exact ⟨matched.report rfl, .nil⟩
  | some same => exact ⟨matched, .cons ⟨same, rfl, rfl, rfl⟩ .nil⟩

/-- What is gathered by two builders at the same point. -/
def Gathered (R : Id → Id → Prop) (start start' : IdSupply) (parent parent' : Option Id)
    (gathered : List Incoming × Work σ) (gathered' : List Incoming × Work τ) : Prop :=
  MatchedBeyond R start start' parent parent' gathered.2 gathered'.2 fun S =>
    List.Forall₂ (Incoming.Corresponds S) gathered.1 gathered'.1

/-- A call's node is opened, its arguments are gathered, and their edges are added. -/
theorem Matched.finishCall (matched : Matched R start start' parent parent' work other)
    (name : String) (style : Option StyleBlock) {gather : Work σ → List Incoming × Work σ}
    {gather' : Work τ → List Incoming × Work τ}
    (gathers : ∀ {S : Id → Id → Prop} {work : Work σ} {other : Work τ},
      Matched S start start' parent parent' work other →
        Gathered S start start' parent parent' (gather work) (gather' other)) :
    let opened := work.openNode name style
    let opened' := other.openNode name style
    let gathered := gather opened.2
    let gathered' := gather' opened'.2
    MatchedBeyond R start start' parent parent' (gathered.2.connectAll opened.1 gathered.1)
      (gathered'.2.connectAll opened'.1 gathered'.1) fun S => S opened.1 opened'.1 := by
  obtain ⟨S, wider, matched', node⟩ := matched.openNode name style
  obtain ⟨T, wider', matched'', same⟩ := gathers matched'
  obtain ⟨U, wider'', connected, _⟩ := matched''.connectAll (wider' _ _ node) same
  exact ⟨U, fun _ _ held => wider'' _ _ (wider' _ _ (wider _ _ held)), connected,
    wider'' _ _ (wider' _ _ node)⟩

mutual

theorem Matched.gatherOne : ∀ (argument : Argument) {R : Id → Id → Prop} {work : Work σ}
    {other : Work τ}, Matched R start start' parent parent' work other →
    Gathered R start start' parent parent'
      ((Work.gatherOne argument work).1.toList, (Work.gatherOne argument work).2)
      ((Work.gatherOne argument other).1.toList, (Work.gatherOne argument other).2)
  | .call ⟨⟨name, arguments, style⟩, _⟩, _, _, _, matched =>
    have ⟨S, wider, connected, node⟩ := matched.finishCall name.value style
      fun opened => Matched.gather arguments opened
    ⟨S, wider, connected, .cons ⟨node, rfl, rfl, rfl⟩ .nil⟩
  | .reference path, R, _, _, matched =>
    have found := matched.lookUp path
    ⟨R, fun _ _ held => held, found.1, found.2⟩
termination_by structural argument => argument

/-- The same arguments are gathered from corresponding elements. -/
theorem Matched.gather : ∀ (arguments : List Argument) {R : Id → Id → Prop} {work : Work σ}
    {other : Work τ}, Matched R start start' parent parent' work other →
    Gathered R start start' parent parent' (Work.gather arguments work)
      (Work.gather arguments other)
  | [], R, _, _, matched => ⟨R, fun _ _ held => held, matched, .nil⟩
  | argument :: rest, _, _, _, matched =>
    have ⟨_, wider, first, here⟩ := Matched.gatherOne argument matched
    have ⟨T, wider', others, later⟩ := Matched.gather rest first
    ⟨T, fun _ _ held => wider' _ _ (wider _ _ held), others,
      List.rel_append (here.imp fun _ _ both => both.mono wider') later⟩
termination_by structural arguments => arguments

end

/-! ### Steps of statements -/

theorem Matched.placeCall (matched : Matched R start start' parent parent' work other)
    (made : Call) :
    MatchedBeyond R start start' parent parent' (work.placeCall made).2 (other.placeCall made).2
      fun S => S (work.placeCall made).1 (other.placeCall made).1 :=
  matched.finishCall made.name.value made.style fun opened => Matched.gather made.arguments opened

theorem Matched.bindTarget (matched : Matched R start start' parent parent' work other)
    {id id' : Id} (same : R id id') (target : Target) :
    Matched R start start' parent parent' (work.bindTarget id target)
      (other.bindTarget id' target) :=
  matched.onLevel _ _ ((matched.level.setVariable _ same).setVariableStyle _ _) rfl rfl

theorem Matched.bindTargets (matched : Matched R start start' parent parent' work other)
    {id id' : Id} (same : R id id') (targets : List Target) :
    Matched R start start' parent parent' (work.bindTargets targets id)
      (other.bindTargets targets id') := by
  induction targets generalizing work other with
  | nil => exact matched
  | cons target rest step => exact step (matched.bindTarget same target)

theorem Matched.placeAlias (matched : Matched R start start' parent parent' work other)
    (target : Target) (path : Spanned QualifiedPath) :
    Matched R start start' parent parent' (work.placeAlias target path)
      (other.placeAlias target path) := by
  have found := matched.level.producer? matched.unique path.value
  unfold Work.placeAlias
  generalize work.level.producer? path.value = id at found
  generalize other.level.producer? path.value = id' at found
  cases found with
  | none => exact matched.report rfl
  | some same => exact matched.bindTarget same target

theorem Matched.placeStyle (matched : Matched R start start' parent parent' work other)
    (name : Spanned String) (block : StyleBlock) :
    Matched R start start' parent parent' (work.placeStyle name block)
      (other.placeStyle name block) := by
  have reported : ∀ (tags : List (Spanned QualifiedPath)) {work : Work σ} {other : Work τ},
      Matched R start start' parent parent' work other →
      Matched R start start' parent parent'
        (tags.foldl (fun work tag => work.report (.undefinedStyleTag tag)) work)
        (tags.foldl (fun work tag => work.report (.undefinedStyleTag tag)) other) := by
    intro tags
    induction tags with
    | nil => exact fun matched => matched
    | cons tag rest step => exact fun matched => step (matched.report rfl)
  unfold Work.placeStyle
  rw [← matched.level.flatten_eq matched.unique block]
  have matched' := reported (block.flatten work.level).missing matched
  exact matched'.onLevel _ _ (matched'.level.setStyle _ _) rfl rfl

theorem Matched.placeBinding (matched : Matched R start start' parent parent' work other)
    (keyword : Spanned String) (tags : List (Spanned QualifiedPath)) :
    Matched R start start' parent parent' (work.placeBinding keyword tags)
      (other.placeBinding keyword tags) :=
  matched.onLevel _ _ (matched.level.bindStyles _ _) rfl rfl

/-- Two levels are opened at the same point, in levels that correspond. -/
theorem Matched.openLevel (matched : Matched R start start' parent parent' work other)
    (name : Option (Spanned String)) (style : Option StyleBlock) :
    MatchedBeyond R start start' (some work.level.id) (some other.level.id)
      (work.openLevel name style) (other.openLevel name style) fun _ => True := by
  obtain ⟨S, wider, matched', same⟩ := matched.freshId
  refine ⟨S, wider, ⟨matched'.pairing, ?_, matched.found, rfl, rfl⟩, trivial⟩
  have empty := Dag.Corresponds.empty same ((name.map Spanned.value).getD "")
  exact (Dag.Corresponds.withParent_left_iff.2
    (Dag.Corresponds.withParent_right_iff.2 empty)).withStyle (elementStyle style)

/-- Two levels are finished at the same point, and nested in levels that correspond. -/
theorem Matched.closeLevel (matched : Matched R start start' parent parent' work other)
    {inner : Work σ} {inner' : Work τ} {placed placed' : Option Id}
    (wider : ∀ id id', R id id' → S id id')
    (finished : Matched S start start' placed placed' inner inner') {incoming incoming' : List Incoming}
    (same : List.Forall₂ (Incoming.Corresponds R) incoming incoming') :
    MatchedBeyond S start start' parent parent' (inner.closeLevel work.level incoming).2
      (inner'.closeLevel other.level incoming').2 fun T =>
        T (inner.closeLevel work.level incoming).1 (inner'.closeLevel other.level incoming').1 := by
  have level := (matched.level.mono wider).attach finished.unique finished.level
  have attached : Matched S start start' parent parent'
      { inner with level := work.level.attach inner.level }
      { inner' with level := other.level.attach inner'.level } :=
    ⟨finished.pairing, level, finished.found, matched.placed, matched.placed'⟩
  obtain ⟨T, wider', connected, _⟩ := attached.connectAll finished.level.level.id
    (same.imp fun _ _ both => both.mono wider)
  exact ⟨T, wider', connected, wider' _ _ finished.level.level.id⟩

end Matched

end Work

/-! ### Imports in lockstep -/

/-- Two imports fail alike, or give corresponding graphs, nested in nothing, under identifiers that
were handed out meanwhile. -/
inductive ResultsAlike (start stop start' stop' : IdSupply) :
    Except ImportError Dag → Except ImportError Dag → Prop where
  | failed (failure : ImportError) : ResultsAlike start stop start' stop' (.error failure)
      (.error failure)
  | given {S : Id → Id → Prop} {graph graph' : Dag} (pairing : Pairing S start stop start' stop')
      (same : graph.Corresponds S graph') (root : graph.parent = none)
      (root' : graph'.parent = none) : ResultsAlike start stop start' stop' (.ok graph) (.ok graph')

/-- Two imports that were asked for at given states of the supplies come to the same. -/
structure Fetched.Alike (start start' : IdSupply) (fetched : Fetched σ) (other : Fetched τ) :
    Prop where
  forward : start.next ≤ fetched.session.supply.next
  forward' : start'.next ≤ other.session.supply.next
  results : ResultsAlike start fetched.session.supply start' other.session.supply fetched.result
    other.result

/-- Two ways to resolve imports go along with each other: wherever what lies outside the two levels
is joined, attempts to import the same location come to the same and leave it joined, unless the
first one escapes. -/
def Resolve.InStep (resolve : Resolve σ) (resolve' : Resolve τ)
    (joined : Outside σ → Outside τ → Prop) (escaped : Outside σ → Prop) : Prop :=
  ∀ location chain session chain' session',
    joined ⟨chain, session.journal, session.store⟩ ⟨chain', session'.journal, session'.store⟩ →
    escaped (resolve.attempt location chain session).outside ∨
      (chain.mayEnter location).isOk = (chain'.mayEnter location).isOk ∧
        joined (resolve.attempt location chain session).outside
          (resolve'.attempt location chain' session').outside ∧
        (resolve.attempt location chain session).Alike session.supply session'.supply
          (resolve'.attempt location chain' session')

namespace Work

section InStep

variable {resolve : Resolve σ} {resolve' : Resolve τ} {joined : Outside σ → Outside τ → Prop}
  {escaped : Outside σ → Prop} {R S : Id → Id → Prop} {start start' : IdSupply}
  {parent parent' : Option Id} {work : Work σ} {other : Work τ}

/-- The first builder has escaped, or both are at the same point. -/
def Together (joined : Outside σ → Outside τ → Prop) (escaped : Outside σ → Prop)
    (R : Id → Id → Prop) (start start' : IdSupply) (parent parent' : Option Id) (work : Work σ)
    (other : Work τ) (also : (Id → Id → Prop) → Prop) : Prop :=
  escaped work.outside ∨
    joined work.outside other.outside ∧ MatchedBeyond R start start' parent parent' work other also

/-- What both have imported, if they have. -/
inductive ImportedAlike (S : Id → Id → Prop) : Option Dag → Option Dag → Prop where
  | nothing : ImportedAlike S none none
  | graphs {graph graph' : Dag} (same : graph.Corresponds S graph') :
      ImportedAlike S (some graph) (some graph')

/-- An attempt to import is noted by both, and both take over what it leaves behind. -/
theorem Matched.fetched (matched : Matched R start start' parent parent' work other)
    (location : String) (admitted : Bool) (chain chain' : ImportChain) {session : Session σ}
    {session' : Session τ} (forward : work.session.supply.next ≤ session.supply.next)
    (forward' : other.session.supply.next ≤ session'.supply.next) :
    Matched R start start' parent parent'
      { work with
        level := if admitted then work.level.addImport location else work.level
        chain := chain
        session := session }
      { other with
        level := if admitted then other.level.addImport location else other.level
        chain := chain'
        session := session' } := by
  have paired := matched.pairing.later forward forward'
  cases admitted with
  | true =>
      exact ⟨paired, matched.level.addImport _, matched.found, matched.placed, matched.placed'⟩
  | false => exact ⟨paired, matched.level, matched.found, matched.placed, matched.placed'⟩

theorem Matched.fetchImport (inStep : resolve.InStep resolve' joined escaped)
    (matched : Matched R start start' parent parent' work other)
    (outside : joined work.outside other.outside) (source : Import) :
    Together joined escaped R start start' parent parent' (work.fetchImport resolve source).2
      (other.fetchImport resolve' source).2 fun S =>
        ImportedAlike S (work.fetchImport resolve source).1
          (other.fetchImport resolve' source).1 := by
  unfold Work.fetchImport
  split
  · refine .inr ⟨?_, R, fun _ _ held => held, matched.report rfl, .nothing⟩
    rw [outside_report, outside_report]
    exact outside
  · have came := inStep source.location.value work.chain work.session other.chain other.session
      outside
    rw [fetch_eq, fetch_eq]
    generalize resolve.attempt source.location.value work.chain work.session = attempted at came
    generalize resolve'.attempt source.location.value other.chain other.session = attempted' at came
    obtain ⟨result, chain, session⟩ := attempted
    obtain ⟨result', chain', session'⟩ := attempted'
    rcases came with escaped | ⟨admitted, outside', alike⟩
    · refine .inl ?_
      cases result with
      | ok imported => exact escaped
      | error failure => exact (outside_report _ _).symm ▸ escaped
    · obtain ⟨forward, forward', results⟩ := alike
      rw [← admitted]
      have fetched := matched.fetched source.location.value
        (work.chain.mayEnter source.location.value).isOk chain chain' forward forward'
      cases results with
      | failed failure =>
          refine .inr ⟨?_, R, fun _ _ held => held, fetched.report rfl, .nothing⟩
          exact (outside_report _ _).symm ▸ (outside_report _ _).symm ▸ outside'
      | given pairing same root root' =>
          exact .inr ⟨outside', _, fun _ _ => .inl, ⟨matched.pairing.join pairing,
            fetched.level.mono fun _ _ => .inl, matched.found, fetched.placed, fetched.placed'⟩,
            .graphs (same.mono fun _ _ => .inr)⟩

theorem Matched.adopt (matched : Matched R start start' parent parent' work other)
    {imported imported' : Dag} (same : imported.Corresponds R imported')
    (name : Option (Spanned String)) :
    MatchedBeyond R start start' parent parent' (work.adopt imported name).2
      (other.adopt imported' name).2 fun S =>
        S (work.adopt imported name).1 (other.adopt imported' name).1 := by
  obtain ⟨S, wider, matched', minted⟩ := matched.freshId
  have named := (same.mono wider).reidentify minted ((name.map Spanned.value).getD "")
  exact ⟨S, wider, matched'.onLevel (fun level => level.attach _) (fun level => level.attach _)
    (matched'.level.attach matched'.unique named) rfl rfl, minted⟩

theorem Matched.placeImport (inStep : resolve.InStep resolve' joined escaped)
    (matched : Matched R start start' parent parent' work other)
    (outside : joined work.outside other.outside) (source : Import) :
    Together joined escaped R start start' parent parent' (work.placeImport resolve source)
      (other.placeImport resolve' source) fun _ => True := by
  have fetched := matched.fetchImport inStep outside source
  unfold Work.placeImport
  generalize work.fetchImport resolve source = pair at fetched
  generalize other.fetchImport resolve' source = pair' at fetched
  obtain ⟨imported, work⟩ := pair
  obtain ⟨imported', other⟩ := pair'
  rcases fetched with escaped | ⟨outside, S, wider, matched, alike⟩
  · refine .inl ?_
    cases imported with
    | none => exact escaped
    | some imported =>
        dsimp only
        split
        · exact escaped
        · exact escaped
  · cases alike with
    | nothing => exact .inr ⟨outside, S, wider, matched, trivial⟩
    | graphs same =>
        dsimp only
        split
        · obtain ⟨T, wider', matched', _⟩ := matched.adopt same source.name
          exact .inr ⟨outside, T, fun _ _ held => wider' _ _ (wider _ _ held), matched', trivial⟩
        · have merged := matched.onLevel (·.merge _) (·.merge _)
            (matched.level.merge matched.unique same) (Dag.parent_merge _ _) (Dag.parent_merge _ _)
          exact .inr ⟨outside, S, wider, merged, trivial⟩

/-- An import on the right of an assignment, together with the variables that stand for it. -/
theorem Matched.assignImport (inStep : resolve.InStep resolve' joined escaped)
    (matched : Matched R start start' parent parent' work other)
    (outside : joined work.outside other.outside) (targets : List Target)
    (source : Spanned Import) :
    Together joined escaped R start start' parent parent'
      (Work.place resolve (.assignment targets (.fetched source)) work)
      (Work.place resolve' (.assignment targets (.fetched source)) other) fun _ => True := by
  have fetched := matched.fetchImport inStep outside source.value
  rw [Work.place, Work.place, Work.placeNestedImport, Work.placeNestedImport]
  generalize work.fetchImport resolve source.value = pair at fetched
  generalize other.fetchImport resolve' source.value = pair' at fetched
  obtain ⟨imported, work⟩ := pair
  obtain ⟨imported', other⟩ := pair'
  rcases fetched with escaped | ⟨outside, S, wider, matched, alike⟩
  · refine .inl ?_
    cases imported with
    | none => exact escaped
    | some imported => exact (outside_bindTargets targets _ _).symm ▸ escaped
  · cases alike with
    | nothing => exact .inr ⟨outside, S, wider, matched, trivial⟩
    | graphs same =>
        obtain ⟨T, wider', matched', minted⟩ := matched.adopt same source.value.name
        refine .inr ⟨?_, T, fun _ _ held => wider' _ _ (wider _ _ held),
          matched'.bindTargets minted targets, trivial⟩
        exact (outside_bindTargets targets _ _).symm ▸ (outside_bindTargets targets _ _).symm ▸
          outside

/-! ### Statements in lockstep -/

/-- A step that does not import keeps the builders together. -/
theorem Together.aside {work' : Work σ} {other' : Work τ} {also : (Id → Id → Prop) → Prop}
    (outside : joined work.outside other.outside) (same : work'.outside = work.outside)
    (same' : other'.outside = other.outside)
    (matched : MatchedBeyond R start start' parent parent' work' other' also) :
    Together joined escaped R start start' parent parent' work' other' also :=
  .inr ⟨same ▸ same' ▸ outside, matched⟩

/-- What is built inside a namespace keeps the builders together outside. -/
theorem Matched.nest (matched : Matched R start start' parent parent' work other)
    (outside : joined work.outside other.outside) (arguments : List Argument)
    {build : Work σ → Work σ} {build' : Work τ → Work τ} (name : Option (Spanned String))
    (style : Option StyleBlock)
    (inside : ∀ {S : Id → Id → Prop} {parent parent' : Option Id} {work : Work σ} {other : Work τ},
      Matched S start start' parent parent' work other → joined work.outside other.outside →
        Together joined escaped S start start' parent parent' (build work) (build' other)
          fun _ => True) :
    let gathered := Work.gather arguments work
    let gathered' := Work.gather arguments other
    let closed := (build (gathered.2.openLevel name style)).closeLevel gathered.2.level gathered.1
    let closed' :=
      (build' (gathered'.2.openLevel name style)).closeLevel gathered'.2.level gathered'.1
    Together joined escaped R start start' parent parent' closed.2 closed'.2
      fun S => S closed.1 closed'.1 := by
  obtain ⟨S, wider, gathered, same⟩ := Matched.gather arguments matched
  obtain ⟨T, wider', opened, _⟩ := gathered.openLevel name style
  have before : joined ((Work.gather arguments work).2.openLevel name style).outside
      ((Work.gather arguments other).2.openLevel name style).outside := by
    rw [outside_openLevel, outside_openLevel, outside_gather, outside_gather]
    exact outside
  rcases inside opened before with escaped | ⟨after, U, wider'', finished, _⟩
  · exact .inl ((outside_closeLevel _ _ _).symm ▸ escaped)
  · obtain ⟨V, widest, closed, held⟩ := gathered.closeLevel
      (fun _ _ held => wider'' _ _ (wider' _ _ held)) finished same
    refine Together.aside after (outside_closeLevel _ _ _) (outside_closeLevel _ _ _)
      ⟨V, fun _ _ held => ?_, closed, held⟩
    exact widest _ _ (wider'' _ _ (wider' _ _ (wider _ _ held)))

mutual

/-- One statement keeps two builders together. -/
theorem Matched.place (inStep : resolve.InStep resolve' joined escaped)
    (forGood : Preserves resolve escaped) : ∀ (statement : Statement) {R : Id → Id → Prop}
    {parent parent' : Option Id} {work : Work σ} {other : Work τ},
    Matched R start start' parent parent' work other → joined work.outside other.outside →
    Together joined escaped R start start' parent parent' (Work.place resolve statement work)
      (Work.place resolve' statement other) fun _ => True
  | .call made, _, _, _, _, _, matched, outside =>
    have ⟨S, wider, placed, _⟩ := matched.placeCall made
    .aside outside (outside_placeCall _ _) (outside_placeCall _ _) ⟨S, wider, placed, trivial⟩
  | .assignment targets (.call made), _, _, _, work, other, matched, outside => by
      obtain ⟨S, wider, placed, same⟩ := matched.placeCall made.value
      exact .aside outside ((outside_bindTargets targets _ _).trans (outside_placeCall _ _))
        ((outside_bindTargets targets _ _).trans (outside_placeCall _ _))
        ⟨S, wider, placed.bindTargets same targets, trivial⟩
  | .assignment targets (.level ⟨⟨name, statements, arguments, style⟩, _⟩), _, _, _, _, _, matched,
      outside => by
      rcases matched.nest outside arguments name style fun inside before =>
        Matched.placeAll inStep forGood statements inside before
        with escaped | ⟨after, S, wider, closed, same⟩
      · exact .inl ((outside_bindTargets targets _ _).symm ▸ escaped)
      · exact .aside after (outside_bindTargets _ _ _) (outside_bindTargets _ _ _)
          ⟨S, wider, closed.bindTargets same targets, trivial⟩
  | .assignment targets (.fetched source), _, _, _, _, _, matched, outside =>
    matched.assignImport inStep outside targets source
  | .alias target path, R, _, _, _, _, matched, outside =>
    .aside outside (outside_placeAlias _ _ _) (outside_placeAlias _ _ _)
      ⟨R, fun _ _ held => held, matched.placeAlias target path, trivial⟩
  | .namedStyle name style, R, _, _, _, _, matched, outside =>
    .aside outside (outside_placeStyle _ _ _) (outside_placeStyle _ _ _)
      ⟨R, fun _ _ held => held, matched.placeStyle name style, trivial⟩
  | .styleBinding keyword tags, R, _, _, _, _, matched, outside =>
    .inr ⟨outside, R, fun _ _ held => held, matched.placeBinding keyword tags, trivial⟩
  | .level ⟨name, statements, arguments, style⟩, _, _, _, _, _, matched, outside => by
      rcases matched.nest outside arguments name style fun inside before =>
        Matched.placeAll inStep forGood statements inside before
        with escaped | ⟨after, S, wider, closed, _⟩
      · exact .inl escaped
      · exact .inr ⟨after, S, wider, closed, trivial⟩
  | .fetched source, _, _, _, _, _, matched, outside => matched.placeImport inStep outside source
  | .reference path, R, _, _, _, _, matched, outside =>
    .aside outside (outside_report _ _) (outside_report _ _)
      ⟨R, fun _ _ held => held, matched.report rfl, trivial⟩
termination_by structural statement => statement

/-- Any number of statements keeps two builders together. -/
theorem Matched.placeAll (inStep : resolve.InStep resolve' joined escaped)
    (forGood : Preserves resolve escaped) : ∀ (statements : List (Spanned Statement))
    {R : Id → Id → Prop} {parent parent' : Option Id} {work : Work σ} {other : Work τ},
    Matched R start start' parent parent' work other → joined work.outside other.outside →
    Together joined escaped R start start' parent parent' (Work.placeAll resolve statements work)
      (Work.placeAll resolve' statements other) fun _ => True
  | [], R, _, _, _, _, matched, outside =>
    .inr ⟨outside, R, fun _ _ held => held, matched, trivial⟩
  | ⟨statement, _⟩ :: rest, _, _, _, _, _, matched, outside => by
      rcases Matched.place inStep forGood statement matched outside
        with escaped | ⟨after, S, wider, matched', _⟩
      · exact .inl (Preserves.placeAll forGood rest escaped)
      · rcases Matched.placeAll inStep forGood rest matched' after
          with escaped | ⟨after', T, wider', matched'', _⟩
        · exact .inl escaped
        · exact .inr ⟨after', T, fun _ _ held => wider' _ _ (wider _ _ held), matched'', trivial⟩
termination_by structural statements => statements

end

end InStep

end Work

/-- The graph of a recipe built twice in lockstep. -/
theorem Recipe.build_alike {resolve : Resolve σ} {resolve' : Resolve τ}
    {joined : Outside σ → Outside τ → Prop} {escaped : Outside σ → Prop}
    (inStep : resolve.InStep resolve' joined escaped) (forGood : Work.Preserves resolve escaped)
    (recipe : Recipe) {chain chain' : ImportChain} {session : Session σ} {session' : Session τ}
    (outside : joined ⟨chain, session.journal, session.store⟩
      ⟨chain', session'.journal, session'.store⟩) :
    let work := recipe.build resolve chain session
    let other := recipe.build resolve' chain' session'
    escaped work.outside ∨ joined work.outside other.outside ∧
      ∃ R, Work.Matched R session.supply session'.supply none none work other := by
  have opened : Work.Matched _ session.supply session'.supply none none
      ⟨.empty session.freshId.1 "", .empty, chain, session.freshId.2⟩
      ⟨.empty session'.freshId.1 "", .empty, chain', session'.freshId.2⟩ :=
    ⟨Pairing.one session.supply session'.supply, .empty ⟨rfl, rfl⟩ "", rfl, rfl, rfl⟩
  rcases Work.Matched.placeAll inStep forGood recipe.statements opened outside
    with escaped | ⟨after, R, _, matched, _⟩
  · exact .inl escaped
  · exact .inr ⟨after, R, matched⟩

end RecipeGraph
