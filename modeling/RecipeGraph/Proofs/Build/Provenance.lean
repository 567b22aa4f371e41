/-
# Building shares no identifiers with what is kept

While a level is being built, its resolver may keep graphs for later. Both take identifiers from the
same supply, now the one and now the other, so it is not enough to know that everything is new since
building began. What carries the proof is a relation between two points of the work: identifiers
that were added to the level in between were handed out in between, and none of them is kept at the
later point; and whatever is kept then was kept before, or was handed out in between. Hence an
identifier of the level cannot be kept later on either.
-/

import RecipeGraph.Proofs.Build.Growth
import RecipeGraph.Proofs.Graph.Minted
import RecipeGraph.Resolver

namespace RecipeGraph

/-- The identifiers of all graphs that a cache holds. -/
def Cache.ids (cache : Cache) : List Id :=
  cache.values.flatMap fun entry => entry.graph.ids

theorem Cache.mem_ids {cache : Cache} {id : Id} :
    id ∈ cache.ids ↔ ∃ entry ∈ cache.values, id ∈ entry.graph.ids :=
  List.mem_flatMap

namespace Session

/-- All that is kept was handed out in this session. -/
def Handed (session : Session Cache) : Prop :=
  ∀ id ∈ session.store.ids, IdSupply.Between .start session.supply id

/-- The session has gone on, and what is kept now was kept before or was handed out meanwhile. -/
structure GoesOn (session after : Session Cache) : Prop where
  forward : session.supply.next ≤ after.supply.next
  stored : ∀ id ∈ after.store.ids,
    id ∈ session.store.ids ∨ IdSupply.Between session.supply after.supply id

namespace GoesOn

variable {session middle after : Session Cache}

theorem refl (session : Session Cache) : session.GoesOn session :=
  ⟨Nat.le_refl _, fun _ => .inl⟩

theorem trans (one : session.GoesOn middle) (two : middle.GoesOn after) : session.GoesOn after where
  forward := Nat.le_trans one.forward two.forward
  stored id held := by
    rcases two.stored id held with before | now
    · exact (one.stored id before).imp_right fun between =>
        between.widen (Nat.le_refl _) two.forward
    · exact .inr (now.widen one.forward (Nat.le_refl _))

/-- The supply alone has gone on. -/
theorem supplied (forward : session.supply.next ≤ after.supply.next)
    (same : after.store = session.store) : session.GoesOn after :=
  ⟨forward, fun _ held => .inl (same ▸ held)⟩

theorem handed (goesOn : session.GoesOn after) (handed : session.Handed) : after.Handed := by
  intro id held
  rcases goesOn.stored id held with before | now
  · exact (handed id before).widen (Nat.le_refl _) goesOn.forward
  · exact now.widen (Nat.zero_le _) (Nat.le_refl _)

/-- What was handed out before and was not kept is not kept later on. -/
theorem not_kept (goesOn : session.GoesOn after) {start : IdSupply} {id : Id}
    (old : IdSupply.Between start session.supply id) (free : id ∉ session.store.ids) :
    id ∉ after.store.ids := fun held =>
  (goesOn.stored id held).elim free old.apart

end GoesOn

/-- What is handed out now is not kept. -/
theorem Handed.not_kept {session : Session Cache} (handed : session.Handed) {stop : IdSupply}
    {id : Id} (new : IdSupply.Between session.supply stop id) : id ∉ session.store.ids := fun held =>
  (handed id held).apart new

end Session

/-- An identifier was handed out in between two points of a session, and is not kept at the later
one. -/
structure Session.Grants (session after : Session Cache) (id : Id) : Prop where
  between : IdSupply.Between session.supply after.supply id
  free : id ∉ after.store.ids

namespace Session.Grants

variable {session middle after : Session Cache} {id : Id}

theorem later (granted : session.Grants middle id) (goesOn : middle.GoesOn after) :
    session.Grants after id :=
  ⟨granted.between.widen (Nat.le_refl _) goesOn.forward, goesOn.not_kept granted.between granted.free⟩

theorem earlier (granted : middle.Grants after id) (goesOn : session.GoesOn middle) :
    session.Grants after id :=
  ⟨granted.between.widen goesOn.forward (Nat.le_refl _), granted.free⟩

end Session.Grants

/-- An import has gone on with the session, and a graph that it gives has new identifiers that are
not kept. -/
structure Fetched.Adds (session : Session Cache) (fetched : Fetched Cache) : Prop where
  goesOn : session.GoesOn fetched.session
  granted : ∀ graph, fetched.result = .ok graph →
    ∀ id ∈ graph.ids, session.Grants fetched.session id

/-- Every import gives nothing but what was handed out for it. -/
def Resolve.Adds (resolve : Resolve Cache) : Prop :=
  ∀ location chain session, session.Handed → (resolve location chain session).Adds session

namespace Work

variable {work middle after : Work Cache}

/-- The work has gone on, and what was added to the level was handed out meanwhile and is not
kept. -/
structure Added (work after : Work Cache) : Prop where
  goesOn : work.session.GoesOn after.session
  level : ∀ id ∈ after.level.ids, id ∈ work.level.ids ∨ work.session.Grants after.session id

/-- What a step adds, provided that all that is kept was handed out in this session. -/
def Adds (work after : Work Cache) : Prop :=
  work.session.Handed → work.Added after

theorem Added.trans (one : work.Added middle) (two : middle.Added after) : work.Added after where
  goesOn := one.goesOn.trans two.goesOn
  level id held := by
    rcases two.level id held with before | now
    · exact (one.level id before).imp_right (·.later two.goesOn)
    · exact .inr (now.earlier one.goesOn)

theorem Adds.trans (one : work.Adds middle) (two : middle.Adds after) : work.Adds after :=
  fun handed => (one handed).trans (two ((one handed).goesOn.handed handed))

/-- A step that defines nothing new and keeps nothing. -/
theorem Adds.aside (forward : work.session.supply.next ≤ after.session.supply.next)
    (store : after.session.store = work.session.store) (level : after.level.ids ⊆ work.level.ids) :
    work.Adds after := fun _ =>
  ⟨.supplied forward store, fun _ held => .inl (level held)⟩

theorem Adds.refl (work : Work Cache) : work.Adds work :=
  .aside (Nat.le_refl _) rfl fun _ => id

/-- A step that takes one identifier, keeps nothing, and defines nothing else. -/
theorem Adds.one (supply : after.session.supply = work.session.supply.take.2)
    (store : after.session.store = work.session.store)
    (level : ∀ id ∈ after.level.ids, id = work.session.supply.take.1 ∨ id ∈ work.level.ids) :
    work.Adds after := by
  intro handed
  have taken : work.session.supply.next ≤ after.session.supply.next :=
    supply ▸ work.session.supply.next_le_take
  refine ⟨.supplied taken store, fun id held => ?_⟩
  rcases level id held with rfl | old
  · have between := supply ▸ work.session.supply.between_take
    exact .inr ⟨between, store ▸ handed.not_kept between⟩
  · exact .inl old

variable (work)

theorem adds_report (warning : Warning) : work.Adds (work.report warning) :=
  .aside (supply_report warning work ▸ Nat.le_refl _) (store_report warning work) fun _ => id

theorem adds_openNode (name : String) (style : Option StyleBlock) :
    work.Adds (work.openNode name style).2 :=
  .one rfl rfl fun _ => Dag.mem_ids_addNode

theorem adds_connect (target : Id) (incoming : Incoming) :
    work.Adds (work.connect target incoming) := by
  unfold connect
  dsimp only
  split
  · next level added =>
      refine .one rfl rfl fun id held => ?_
      rw [(Dag.addEdge_ok added).2.2] at held
      exact Dag.mem_ids_insertEdge held
  · have taken : work.Adds work.freshId.2 := .one rfl rfl fun _ => .inr
    exact taken.trans (adds_report _ _)

theorem adds_connectAll (target : Id) (incoming : List Incoming) :
    work.Adds (work.connectAll target incoming) := by
  induction incoming generalizing work with
  | nil => exact .refl work
  | cons argument rest step => exact (work.adds_connect target argument).trans (step _)

theorem adds_lookUp (path : Spanned QualifiedPath) : work.Adds (work.lookUp path).2 := by
  unfold lookUp
  split
  · exact work.adds_report _
  · exact .refl work

mutual

theorem adds_gatherOne : ∀ (argument : Argument) (work : Work Cache),
    work.Adds (gatherOne argument work).2
  | .call ⟨⟨name, arguments, style⟩, _⟩, work =>
    ((work.adds_openNode name.value style).trans (adds_gather arguments _)).trans
      (adds_connectAll _ _ _)
  | .reference path, work => work.adds_lookUp path
termination_by structural argument => argument

theorem adds_gather : ∀ (arguments : List Argument) (work : Work Cache),
    work.Adds (gather arguments work).2
  | [], work => .refl work
  | argument :: rest, work => (adds_gatherOne argument work).trans (adds_gather rest _)
termination_by structural arguments => arguments

end

theorem adds_placeCall (made : Call) : work.Adds (work.placeCall made).2 :=
  ((work.adds_openNode made.name.value made.style).trans (adds_gather made.arguments _)).trans
    (adds_connectAll _ _ _)

/-- A change of a level's registries defines nothing. -/
theorem adds_register (change : Dag → Dag) (id : (change work.level).id = work.level.id)
    (inner : (change work.level).innerIds = work.level.innerIds) :
    work.Adds (work.onLevel change) :=
  .aside (Nat.le_refl _) rfl fun _ held => by
    rw [Dag.ids_eq, ← id, ← inner, ← Dag.ids_eq]
    exact held

theorem adds_bindTarget (id : Id) (target : Target) : work.Adds (work.bindTarget id target) :=
  work.adds_register _ rfl rfl

theorem adds_bindTargets (targets : List Target) (id : Id) :
    work.Adds (work.bindTargets targets id) :=
  List.foldlRecOn targets (bindTarget id) (.refl work) fun middle added target _ =>
    added.trans (middle.adds_bindTarget id target)

theorem adds_placeAlias (target : Target) (path : Spanned QualifiedPath) :
    work.Adds (work.placeAlias target path) := by
  unfold placeAlias
  split
  · exact work.adds_report _
  · exact work.adds_bindTarget _ target

theorem adds_placeStyle (name : Spanned String) (block : StyleBlock) :
    work.Adds (work.placeStyle name block) := by
  have reported : work.Adds ((block.flatten work.level).missing.foldl
      (fun work tag => work.report (.undefinedStyleTag tag)) work) :=
    List.foldlRecOn _ _ (.refl work) fun middle added _ _ => added.trans (middle.adds_report _)
  exact reported.trans (adds_register _ (fun level => level.setStyle name.value _) rfl rfl)

/-! ### Levels -/

variable {work}

/-- What is built inside a namespace is added outside. -/
theorem adds_nest (arguments : List Argument) {build : Work Cache → Work Cache}
    (name : Option (Spanned String)) (style : Option StyleBlock)
    (inside : ∀ work : Work Cache, work.Adds (build work)) :
    let gathered := gather arguments work
    let closed := (build (gathered.2.openLevel name style)).closeLevel gathered.2.level gathered.1
    work.Adds closed.2 := by
  intro gathered closed
  have attached : gathered.2.Adds
      { build (gathered.2.openLevel name style) with
        level := gathered.2.level.attach (build (gathered.2.openLevel name style)).level } := by
    intro handed
    have opened : gathered.2.session.GoesOn (gathered.2.openLevel name style).session :=
      .supplied gathered.2.session.supply.next_le_take rfl
    have built := inside _ (opened.handed handed)
    refine ⟨opened.trans built.goesOn, fun id held => ?_⟩
    rcases Dag.mem_ids_attach held with outer | inner
    · exact .inl outer
    refine .inr ?_
    rcases built.level id inner with root | new
    · have minted : id = gathered.2.session.supply.take.1 := by
        rw [Dag.ids_eq] at root
        exact List.mem_singleton.1 root
      have between : IdSupply.Between gathered.2.session.supply
          (gathered.2.openLevel name style).session.supply id :=
        minted ▸ gathered.2.session.supply.between_take
      have granted : gathered.2.session.Grants (gathered.2.openLevel name style).session id :=
        ⟨between, handed.not_kept between⟩
      exact granted.later built.goesOn
    · exact new.earlier opened
  exact ((adds_gather arguments work).trans attached).trans (adds_connectAll _ _ _)

/-! ### Imports -/

variable {resolve : Resolve Cache}

/-- An import has been made: the work has gone on, and a graph that was given has identifiers handed
out meanwhile. -/
structure Imports (work : Work Cache) (imported : Option Dag) (after : Work Cache) : Prop where
  added : work.Added after
  granted : ∀ graph, imported = some graph →
    ∀ id ∈ graph.ids, work.session.Grants after.session id

private theorem eq_ok_of_toOption {ε α : Type} {result : Except ε α} {value : α}
    (given : result.toOption = some value) : result = .ok value := by
  cases result with
  | error failure => cases given
  | ok found => exact congrArg Except.ok (Option.some.inj given)

theorem imports_fetch (resolves : resolve.Adds) (location : String) (handed : work.session.Handed) :
    work.Imports (work.fetch resolve location).1.toOption (work.fetch resolve location).2 := by
  unfold fetch
  split
  · have cut : work.Adds { work with chain := work.chain.recordCut } :=
      .aside (Nat.le_refl _) rfl fun _ => id
    exact ⟨cut handed, nofun⟩
  · have fetched := resolves location ((work.chain.recordImport location).push location) work.session
      handed
    refine ⟨⟨fetched.goesOn, fun id held => .inl ?_⟩, fun graph given => ?_⟩
    · rw [Dag.ids_eq] at held ⊢
      exact held
    · exact fetched.granted graph (eq_ok_of_toOption given)

theorem imports_fetchImport (resolves : resolve.Adds) (source : Import)
    (handed : work.session.Handed) :
    work.Imports (work.fetchImport resolve source).1 (work.fetchImport resolve source).2 := by
  unfold fetchImport
  split
  · exact ⟨work.adds_report _ handed, nofun⟩
  · have fetched := imports_fetch resolves source.location.value handed
    generalize work.fetch resolve source.location.value = pair at fetched ⊢
    obtain ⟨result, middle⟩ := pair
    cases result with
    | error failure =>
        exact ⟨fetched.added.trans (adds_report _ _ (fetched.added.goesOn.handed handed)), nofun⟩
    | ok graph => exact fetched

/-- What is absorbed by the level, or nested in it, was handed out for it. -/
theorem Imports.added_of {imported : Dag} {change : Dag → Dag}
    (imports : work.Imports (some imported) middle)
    (brought : ∀ id ∈ (change middle.level).ids, id ∈ middle.level.ids ∨ id ∈ imported.ids) :
    work.Added (middle.onLevel change) where
  goesOn := imports.added.goesOn
  level id held := (brought id held).elim (imports.added.level id)
    fun new => .inr (imports.granted imported rfl id new)

theorem Imports.adopt {imported : Dag} (imports : work.Imports (some imported) middle)
    (name : Option (Spanned String)) (handed : work.session.Handed) :
    work.Added (middle.adopt imported name).2 := by
  have taken : middle.session.GoesOn (middle.adopt imported name).2.session :=
    .supplied middle.session.supply.next_le_take rfl
  refine ⟨imports.added.goesOn.trans taken, fun id held => ?_⟩
  rcases Dag.mem_ids_attach held with old | nested
  · exact (imports.added.level id old).imp_right (·.later taken)
  rcases Dag.mem_ids_reidentify nested with rfl | inner
  · have between := middle.session.supply.between_take
    have free := (imports.added.goesOn.handed handed).not_kept between
    exact .inr (Session.Grants.earlier ⟨between, free⟩ imports.added.goesOn)
  · exact .inr ((imports.granted imported rfl id inner).later taken)

theorem adds_placeNestedImport (resolves : resolve.Adds) (source : Import) :
    work.Adds (work.placeNestedImport resolve source).2 := by
  intro handed
  have fetched := imports_fetchImport resolves source handed
  unfold placeNestedImport
  generalize work.fetchImport resolve source = pair at fetched
  obtain ⟨imported, middle⟩ := pair
  cases imported with
  | none => exact fetched.added
  | some imported => exact fetched.adopt source.name handed

theorem adds_placeImport (resolves : resolve.Adds) (source : Import) :
    work.Adds (work.placeImport resolve source) := by
  intro handed
  have fetched := imports_fetchImport resolves source handed
  unfold placeImport
  generalize work.fetchImport resolve source = pair at fetched
  obtain ⟨imported, middle⟩ := pair
  cases imported with
  | none => exact fetched.added
  | some imported =>
      dsimp only
      split
      · exact fetched.adopt _ handed
      · exact fetched.added_of fun _ => Dag.mem_ids_merge

/-! ### Statements -/

mutual

/-- One statement adds nothing but what was handed out for it. -/
theorem adds_place (resolves : resolve.Adds) : ∀ (statement : Statement) (work : Work Cache),
    work.Adds (place resolve statement work)
  | .call made, work => work.adds_placeCall made
  | .assignment targets (.call made), work =>
    (work.adds_placeCall made.value).trans (adds_bindTargets _ targets _)
  | .assignment targets (.level ⟨⟨name, statements, arguments, style⟩, _⟩), work =>
    (adds_nest arguments name style (adds_placeAll resolves statements)).trans
      (adds_bindTargets _ targets _)
  | .assignment targets (.fetched source), work => by
      have placed : work.Adds (work.placeNestedImport resolve source.value).2 :=
        adds_placeNestedImport resolves source.value
      rw [place]
      generalize work.placeNestedImport resolve source.value = pair at placed
      obtain ⟨id, middle⟩ := pair
      cases id with
      | none => exact placed
      | some id => exact placed.trans (adds_bindTargets _ targets id)
  | .alias target path, work => work.adds_placeAlias target path
  | .namedStyle name style, work => work.adds_placeStyle name style
  | .styleBinding keyword tags, work =>
    work.adds_register (fun level => level.bindStyles keyword.value (tags.map Spanned.value)) rfl rfl
  | .level ⟨name, statements, arguments, style⟩, _ =>
    adds_nest arguments name style (adds_placeAll resolves statements)
  | .fetched source, _ => adds_placeImport resolves source
  | .reference _, work => work.adds_report _
termination_by structural statement => statement

/-- Statements add nothing but what was handed out for them. -/
theorem adds_placeAll (resolves : resolve.Adds) :
    ∀ (statements : List (Spanned Statement)) (work : Work Cache),
      work.Adds (placeAll resolve statements work)
  | [], work => .refl work
  | ⟨statement, _⟩ :: rest, work =>
    (adds_place resolves statement work).trans (adds_placeAll resolves rest _)
termination_by structural statements => statements

end

end Work

/-- The graph of a recipe has identifiers that were handed out for it and are not kept. -/
theorem Recipe.build_adds {resolve : Resolve Cache} (resolves : resolve.Adds) (recipe : Recipe)
    (chain : ImportChain) {session : Session Cache} (handed : session.Handed) :
    session.GoesOn (recipe.build resolve chain session).session ∧
      ∀ id ∈ (recipe.build resolve chain session).level.ids,
        session.Grants (recipe.build resolve chain session).session id := by
  have opened : session.GoesOn session.freshId.2 := .supplied session.supply.next_le_take rfl
  have built := Work.adds_placeAll resolves recipe.statements
    ⟨.empty session.freshId.1 "", .empty, chain, session.freshId.2⟩ (opened.handed handed)
  refine ⟨opened.trans built.goesOn, fun id held => ?_⟩
  rcases built.level id held with root | new
  · have minted : id = session.supply.take.1 := List.mem_singleton.1 root
    have between : IdSupply.Between session.supply session.freshId.2.supply id :=
      minted ▸ session.supply.between_take
    have granted : session.Grants session.freshId.2 id := ⟨between, handed.not_kept between⟩
    exact granted.later built.goesOn
  · exact new.earlier opened

end RecipeGraph
