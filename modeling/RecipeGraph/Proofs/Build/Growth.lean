/-
# How building changes a level

Whatever statements do, they change the level at hand by a few kinds of single changes: they add an
element or an edge, let a variable stand for an element, register styles and bindings, note a
location, or absorb a graph that was imported. This module says so once, for all statements, and
reads off what none of these changes ever undoes: elements stay elements, nested levels stay nested,
registries hold no key twice, locations are only added. No warning is taken back either.

What is nested or absorbed is new to the level. This is where soundness comes in: a level attached
under the identifier of an older one would replace it.
-/

import Mathlib.Logic.Relation
import RecipeGraph.Proofs.Build.Soundness

namespace RecipeGraph

variable {σ : Type}

/-! ### Single changes of a level -/

/-- A single change of a level. Styles are registered under names of which `named` holds, and the
graphs absorbed are those of which `absorbed` holds. -/
inductive Dag.Change (named : String → Prop) (absorbed : Dag → Prop) : Dag → Dag → Prop
  | addNode (dag : Dag) (node : Node) : Change named absorbed dag (dag.addNode node)
  | addEdge {dag changed : Dag} {edge : Edge} (added : dag.addEdge edge = .ok changed) :
      Change named absorbed dag changed
  | attach {dag child : Dag} (new : child.id ∉ dag.elements) :
      Change named absorbed dag (dag.attach child)
  | bind {dag : Dag} (name : String) {id : Id} (held : id ∈ dag.elements) (style : Option Style) :
      Change named absorbed dag ((dag.setVariable name id).setVariableStyle name style)
  | setStyle (dag : Dag) {name : String} (allowed : named name) (properties : StyleProperties) :
      Change named absorbed dag (dag.setStyle name properties)
  | bindStyles (dag : Dag) (keyword : String) (tags : List QualifiedPath) :
      Change named absorbed dag (dag.bindStyles keyword tags)
  | addImport (dag : Dag) (location : String) : Change named absorbed dag (dag.addImport location)
  | merge {dag other : Dag} (allowed : absorbed other) (sound : other.Sound)
      (apart : ∀ id ∈ dag.elements, id ∉ other.elements) :
      Change named absorbed dag (dag.merge other)

/-- Any number of single changes. -/
abbrev Dag.Grows (named : String → Prop) (absorbed : Dag → Prop) : Dag → Dag → Prop :=
  Relation.ReflTransGen (Dag.Change named absorbed)

/-- The level at hand has grown, and no warning has been taken back. -/
structure Work.Grows (named : String → Prop) (absorbed : Dag → Prop) (work after : Work σ) :
    Prop where
  level : work.level.Grows named absorbed after.level
  found : work.found.entries ⊆ after.found.entries

/-- Every graph that an import comes to has the given property. -/
def Resolve.Gives (resolve : Resolve σ) (absorbed : Dag → Prop) : Prop :=
  ∀ location chain session graph, (resolve location chain session).result = .ok graph →
    absorbed graph

/-- The style that a statement declares, if it declares one, has a name with the given property. -/
def Statement.Declares (named : String → Prop) (statement : Statement) : Prop :=
  ∀ name block, statement = .namedStyle name block → named name.value

/-! ### What no change undoes -/

namespace Dag

variable {named : String → Prop} {absorbed : Dag → Prop} {dag changed : Dag}

theorem Change.id_eq (change : dag.Change named absorbed changed) : changed.id = dag.id := by
  cases change with
  | addEdge added => rw [(addEdge_ok added).2.2]
  | merge => exact id_merge _ _
  | _ => rfl

theorem Grows.id_eq (grown : dag.Grows named absorbed changed) : changed.id = dag.id := by
  induction grown with
  | refl => rfl
  | tail _ change step => exact change.id_eq.trans step

theorem Change.elements_subset (change : dag.Change named absorbed changed) :
    dag.elements ⊆ changed.elements := by
  intro id held
  cases change with
  | addNode node => exact mem_elements_addNode.2 (.inr held)
  | addEdge added =>
      rw [(addEdge_ok added).2.2]
      exact held
  | attach new => exact mem_elements_attach.2 (.inr held)
  | merge allowed sound apart => exact (mem_elements_merge sound.children_keyed).2 (.inl held)
  | _ => exact held

theorem Grows.elements_subset (grown : dag.Grows named absorbed changed) :
    dag.elements ⊆ changed.elements := by
  induction grown with
  | refl => exact fun _ held => held
  | tail _ change step => exact fun _ held => change.elements_subset (step held)

/-- A nested level stays nested, since what comes after it is new. -/
theorem Change.children_subset (change : dag.Change named absorbed changed) :
    dag.children.entries ⊆ changed.children.entries := by
  intro entry held
  have here : entry.1 ∈ dag.elements := mem_elements.2 (.inr (List.mem_map_of_mem held))
  cases change with
  | addEdge added =>
      rw [(addEdge_ok added).2.2]
      exact held
  | attach new => exact OrderedMap.mem_entries_insert_of_ne held fun same => new (same ▸ here)
  | merge allowed sound apart =>
      rw [children_merge]
      refine OrderedMap.mem_entries_insertAll_of_absent held ?_
      rw [keys_moved sound.children_keyed]
      exact fun new => apart _ here (mem_elements.2 (.inr new))
  | _ => exact held

/-- No registry of the level holds a key twice, nested levels are kept under their own identifiers,
variables stand for elements, and they and their styles are kept under the same names. -/
structure Tidy (dag : Dag) : Prop where
  nodes : dag.nodes.Distinct
  edges : dag.edges.Distinct
  children : dag.children.Distinct
  styles : dag.styles.Distinct
  bindings : dag.bindings.Distinct
  variableIds : dag.variableIds.Distinct
  variableStyles : dag.variableStyles.Distinct
  children_keyed : ∀ entry ∈ dag.children.entries, entry.1 = entry.2.id
  variables_bound : ∀ id ∈ dag.variableIds.values, id ∈ dag.elements
  names_shared : dag.variableIds.keys = dag.variableStyles.keys

theorem tidy_empty (id : Id) (name : String) : (Dag.empty id name).Tidy :=
  ⟨.nil, .nil, .nil, .nil, .nil, .nil, .nil, nofun, nofun, rfl⟩

/-- Arguments flow from elements of the level. -/
theorem Tidy.producer?_mem (tidy : dag.Tidy) {path : QualifiedPath} {id : Id}
    (found : dag.producer? path = some id) : id ∈ dag.elements := by
  rcases producer?_cases found with bound | ⟨child, nested, rfl⟩
  · exact tidy.variables_bound id bound
  · exact mem_elements.2 (.inr (values_keyed tidy.children_keyed nested))

theorem Change.tidy (change : dag.Change named absorbed changed) (tidy : dag.Tidy) :
    changed.Tidy := by
  have kept : ∀ id ∈ dag.variableIds.values, id ∈ changed.elements := fun id held =>
    change.elements_subset (tidy.variables_bound id held)
  cases change with
  | addNode node => exact { tidy with nodes := tidy.nodes.insert _ _, variables_bound := kept }
  | addEdge added =>
      rw [(addEdge_ok added).2.2]
      exact { tidy with edges := tidy.edges.insert _ _ }
  | attach new =>
      exact { tidy with
        children := tidy.children.insert _ _
        children_keyed := keyed_attach tidy.children_keyed _
        variables_bound := kept }
  | @bind name id here style =>
      refine { tidy with
        variableIds := tidy.variableIds.insert name id
        variableStyles := tidy.variableStyles.insert name style
        variables_bound := ?_
        names_shared := OrderedMap.keys_insert_congr tidy.names_shared name id style }
      intro bound held
      rcases OrderedMap.mem_values_insert held with rfl | old
      · exact here
      · exact kept bound old
  | setStyle allowed properties => exact { tidy with styles := tidy.styles.insert _ properties }
  | bindStyles keyword tags => exact { tidy with bindings := tidy.bindings.insert keyword tags }
  | addImport location => exact { tidy with }
  | @merge other allowed sound apart =>
      have children : (dag.merge other).children.Distinct := by
        rw [children_merge]
        exact tidy.children.insertAll _
      have nodes : (dag.merge other).nodes.Distinct := by
        rw [nodes_merge]
        exact tidy.nodes.insertAll _
      have edges : (dag.merge other).edges.Distinct := by
        rw [edges_merge]
        exact tidy.edges.insertAll _
      refine ⟨nodes, edges, children, tidy.styles.insertAll _, tidy.bindings.insertAll _,
        tidy.variableIds.insertAll _, tidy.variableStyles.insertAll _,
        keyed_merge tidy.children_keyed other, ?_,
        OrderedMap.keys_extend_congr tidy.names_shared sound.names_shared⟩
      intro id held
      rcases OrderedMap.mem_values_extend held with new | old
      · exact (mem_elements_merge sound.children_keyed).2 (.inr (sound.variables_bound id new))
      · exact kept id old

theorem Grows.tidy (grown : dag.Grows named absorbed changed) (tidy : dag.Tidy) :
    changed.Tidy := by
  induction grown with
  | refl => exact tidy
  | tail _ change step => exact change.tidy step

/-- Locations are only added. -/
theorem Change.imports_eq (change : dag.Change named absorbed changed) :
    ∃ added, changed.imports = dag.imports.insertAll added := by
  cases change with
  | addEdge added =>
      rw [(addEdge_ok added).2.2]
      exact ⟨[], rfl⟩
  | addImport location => exact ⟨[location], rfl⟩
  | @merge other allowed sound apart => exact ⟨other.imports.members, rfl⟩
  | _ => exact ⟨[], rfl⟩

theorem Grows.imports_eq (grown : dag.Grows named absorbed changed) :
    ∃ added, changed.imports = dag.imports.insertAll added := by
  induction grown with
  | refl => exact ⟨[], rfl⟩
  | tail _ change step =>
      obtain ⟨first, before⟩ := step
      obtain ⟨second, now⟩ := change.imports_eq
      exact ⟨first ++ second, by rw [now, before, OrderedSet.insertAll_append]⟩

/-- Every name under which a style of the level is kept has the given property. -/
def StylesNamed (named : String → Prop) (dag : Dag) : Prop :=
  ∀ name ∈ dag.styles.keys, named name

theorem Change.stylesNamed (change : dag.Change named (StylesNamed named) changed)
    (kept : dag.StylesNamed named) : changed.StylesNamed named := by
  cases change with
  | addEdge added =>
      rw [(addEdge_ok added).2.2]
      exact kept
  | setStyle allowed properties =>
      intro name held
      rcases OrderedMap.mem_keys_insert.1 held with rfl | old
      · exact allowed
      · exact kept name old
  | merge allowed sound apart =>
      intro name held
      exact (OrderedMap.mem_keys_insertAll.1 held).elim (allowed name) (kept name)
  | _ => exact kept

theorem Grows.stylesNamed (grown : dag.Grows named (StylesNamed named) changed)
    (kept : dag.StylesNamed named) : changed.StylesNamed named := by
  induction grown with
  | refl => exact kept
  | tail _ change step => exact change.stylesNamed step

end Dag

/-! ### Building makes such changes -/

namespace Work

variable {named : String → Prop} {absorbed : Dag → Prop} {work middle after : Work σ}

theorem Grows.refl (work : Work σ) : work.Grows named absorbed work :=
  ⟨.refl, fun _ => id⟩

theorem Grows.trans (one : work.Grows named absorbed middle)
    (two : middle.Grows named absorbed after) : work.Grows named absorbed after :=
  ⟨one.level.trans two.level, fun _ held => two.found (one.found held)⟩

/-- A single change of the level, and no warning. -/
theorem Grows.single (changed : work.level.Change named absorbed after.level)
    (found : after.found = work.found) : work.Grows named absorbed after :=
  ⟨.single changed, found ▸ fun _ => id⟩

theorem tidy_openLevel (work : Work σ) (name : Option (Spanned String))
    (style : Option StyleBlock) : (work.openLevel name style).level.Tidy :=
  { Dag.tidy_empty work.freshId.1 ((name.map Spanned.value).getD "") with }

variable (named absorbed work)

theorem grows_report (warning : Warning) : work.Grows named absorbed (work.report warning) where
  level := by
    unfold report
    split
    · exact .refl
    · exact .refl
  found := fun _ held => List.mem_append_left _ held

theorem grows_openNode (name : String) (style : Option StyleBlock) :
    work.Grows named absorbed (work.openNode name style).2 :=
  .single (.addNode _ _) rfl

theorem grows_connect (target : Id) (incoming : Incoming) :
    work.Grows named absorbed (work.connect target incoming) := by
  unfold connect
  dsimp only
  split
  · next level added => exact .single (.addEdge added) rfl
  · next reason _ =>
      have reported := grows_report named absorbed work.freshId.2 (.edgeDropped reason incoming.span)
      exact ⟨reported.level, reported.found⟩

theorem grows_connectAll (target : Id) (incoming : List Incoming) :
    work.Grows named absorbed (work.connectAll target incoming) := by
  induction incoming generalizing work with
  | nil => exact .refl work
  | cons argument rest step => exact (grows_connect named absorbed work target argument).trans (step _)

theorem grows_lookUp (path : Spanned QualifiedPath) :
    work.Grows named absorbed (work.lookUp path).2 := by
  unfold lookUp
  split
  · exact grows_report named absorbed work _
  · exact .refl work

mutual

theorem grows_gatherOne : ∀ (argument : Argument) (work : Work σ),
    work.Grows named absorbed (gatherOne argument work).2
  | .call ⟨⟨name, arguments, style⟩, _⟩, work =>
    ((grows_openNode named absorbed work name.value style).trans
      (grows_gather arguments (work.openNode name.value style).2)).trans
      (grows_connectAll named absorbed _ _ _)
  | .reference path, work => grows_lookUp named absorbed work path
termination_by structural argument => argument

theorem grows_gather : ∀ (arguments : List Argument) (work : Work σ),
    work.Grows named absorbed (gather arguments work).2
  | [], work => .refl work
  | argument :: rest, work =>
    (grows_gatherOne argument work).trans (grows_gather rest (gatherOne argument work).2)
termination_by structural arguments => arguments

end

theorem grows_placeCall (made : Call) : work.Grows named absorbed (work.placeCall made).2 :=
  ((grows_openNode named absorbed work made.name.value made.style).trans
    (grows_gather named absorbed made.arguments _)).trans (grows_connectAll named absorbed _ _ _)

variable {work} in
theorem grows_bindTarget {id : Id} (held : id ∈ work.level.elements) (target : Target) :
    work.Grows named absorbed (work.bindTarget id target) :=
  .single (.bind target.name.value held _) rfl

variable {work} in
theorem grows_bindTargets {id : Id} (held : id ∈ work.level.elements) (targets : List Target) :
    work.Grows named absorbed (work.bindTargets targets id) := by
  induction targets generalizing work with
  | nil => exact .refl work
  | cons target rest step =>
      have bound := grows_bindTarget named absorbed held target
      exact bound.trans (step (bound.level.elements_subset held))

variable {work} in
theorem grows_placeAlias (target : Target) {path : Spanned QualifiedPath}
    (inside : ∀ id, work.level.producer? path.value = some id → id ∈ work.level.elements) :
    work.Grows named absorbed (work.placeAlias target path) := by
  unfold placeAlias
  split
  · exact grows_report named absorbed work _
  · next id found => exact grows_bindTarget named absorbed (inside id found) target

theorem grows_reportAll (tags : List (Spanned QualifiedPath)) :
    work.Grows named absorbed
      (tags.foldl (fun work tag => work.report (.undefinedStyleTag tag)) work) := by
  induction tags generalizing work with
  | nil => exact .refl work
  | cons tag rest step => exact (grows_report named absorbed work _).trans (step _)

theorem grows_placeStyle {name : Spanned String} (allowed : named name.value) (block : StyleBlock) :
    work.Grows named absorbed (work.placeStyle name block) :=
  (grows_reportAll named absorbed work (block.flatten work.level).missing).trans
    (.single (.setStyle _ allowed _) rfl)

section Imports

variable {keeps : σ → Prop} {old : List String} {start : IdSupply} {resolve : Resolve σ} {work}

/-- A level that was opened last is nested as something new. -/
theorem Sound.grows_attach {outer inner : Work σ} (sound : outer.Sound keeps old start)
    (opened : inner.level.id = outer.freshId.1)
    (kept : outer.found.entries ⊆ inner.found.entries) :
    outer.Grows named absorbed { inner with level := outer.level.attach inner.level } := by
  have new : inner.level.id ∉ outer.level.elements := by
    rw [opened]
    exact sound.freshId_new
  exact ⟨.single (.attach new), kept⟩

/-- What is built inside a namespace comes to one more nested level outside. -/
theorem Sound.grows_nest (sound : work.Sound keeps old start) (arguments : List Argument)
    {build : Work σ → Work σ} (name : Option (Spanned String)) (style : Option StyleBlock)
    (inside : ∀ {start : IdSupply} {work : Work σ}, work.Sound keeps old start →
      work.Grows (fun _ => True) absorbed (build work)) :
    let gathered := Work.gather arguments work
    let closed := (build (gathered.2.openLevel name style)).closeLevel gathered.2.level gathered.1
    work.Grows named absorbed closed.2 := by
  intro gathered closed
  have sound' := (sound.gather arguments).1
  have built := inside (sound'.openLevel name style)
  have attached := sound'.grows_attach named absorbed built.level.id_eq built.found
  exact ((grows_gather named absorbed arguments work).trans attached).trans
    (grows_connectAll named absorbed _ _ _)

variable {absorbed}

theorem grows_fetchImport (work : Work σ) (gives : resolve.Gives absorbed) (source : Import) :
    work.Grows named absorbed (work.fetchImport resolve source).2 ∧
      ∀ graph, (work.fetchImport resolve source).1 = some graph → absorbed graph := by
  unfold Work.fetchImport
  split
  · exact ⟨grows_report named absorbed work _, fun _ impossible => nomatch impossible⟩
  · have fetched : work.Grows named absorbed (work.fetch resolve source.location.value).2 ∧
        ∀ graph, (work.fetch resolve source.location.value).1 = .ok graph → absorbed graph := by
      unfold Work.fetch
      split
      · exact ⟨⟨.refl, fun _ => id⟩, fun _ impossible => nomatch impossible⟩
      · exact ⟨.single (.addImport _ _) rfl, fun graph given => gives _ _ _ graph given⟩
    split
    · next imported work' same =>
        rw [same] at fetched
        exact ⟨fetched.1, fun graph given => fetched.2 graph (congrArg _ (Option.some.inj given))⟩
    · next failure work' same =>
        rw [same] at fetched
        exact ⟨fetched.1.trans (grows_report named absorbed _ _),
          fun _ impossible => nomatch impossible⟩

/-- An adopted graph is nested under an identifier that is new to the level. -/
theorem Sound.grows_adopt (sound : work.Sound keeps old start) (imported : Dag)
    (name : Option (Spanned String)) : work.Grows named absorbed (work.adopt imported name).2 :=
  .single (.attach sound.freshId_new) rfl

theorem Sound.grows_placeNestedImport (sound : work.Sound keeps old start)
    (resolves : resolve.Sound keeps) (gives : resolve.Gives absorbed) (source : Import) :
    work.Grows named absorbed (work.placeNestedImport resolve source).2 := by
  have fetched := (grows_fetchImport named work gives source).1
  have sound' := (sound.fetchImport resolves source).1
  unfold Work.placeNestedImport
  split
  · next same =>
      rw [same] at fetched
      exact fetched
  · next imported _ same =>
      rw [same] at fetched sound'
      exact fetched.trans (sound'.grows_adopt named imported source.name)

theorem Sound.grows_placeImport (sound : work.Sound keeps old start)
    (resolves : resolve.Sound keeps) (gives : resolve.Gives absorbed) (source : Import) :
    work.Grows named absorbed (work.placeImport resolve source) := by
  have fetched := grows_fetchImport named work gives source
  have sound' := sound.fetchImport resolves source
  unfold Work.placeImport
  split
  · next same =>
      rw [same] at fetched
      exact fetched.1
  · next imported work' same =>
      rw [same] at fetched sound'
      split
      · exact fetched.1.trans (sound'.1.grows_adopt named imported source.name)
      · obtain ⟨middle, level, graph⟩ := sound'.2 imported rfl
        have apart : ∀ id ∈ work'.level.elements, id ∉ imported.elements := fun id old new =>
          level.apart graph id (level.elements_subset old) (graph.elements_subset new)
        exact fetched.1.trans
          (.single (.merge (fetched.2 imported rfl) graph.sound.root apart) rfl)

mutual

/-- One statement changes the level by single changes. -/
theorem Sound.grows_place (resolves : resolve.Sound keeps) (gives : resolve.Gives absorbed) :
    ∀ (statement : Statement) (named : String → Prop) {start : IdSupply} {work : Work σ},
    work.Sound keeps old start → statement.Declares named →
    work.Grows named absorbed (Work.place resolve statement work)
  | .call made, _, _, work, _, _ => grows_placeCall _ _ work made
  | .assignment targets (.call made), _, _, work, sound, _ =>
    (grows_placeCall _ _ work made.value).trans
      (grows_bindTargets _ _ (sound.placeCall made.value).2 targets)
  | .assignment targets (.level ⟨⟨name, statements, arguments, style⟩, _⟩), _, _, _, sound, _ =>
    (sound.grows_nest _ _ arguments name style fun inside =>
      Sound.grows_placeAll resolves gives statements _ inside fun _ _ _ _ _ => trivial).trans
      (grows_bindTargets _ _ (sound.nest arguments name style fun inside =>
        inside.placeAll resolves statements).2 targets)
  | .assignment targets (.fetched source), named, _, _, sound, _ => by
      have placed := sound.grows_placeNestedImport named resolves gives source.value
      have held := (sound.placeNestedImport resolves source.value).2
      rw [Work.place]
      split
      · next same =>
          rw [same] at placed
          exact placed
      · next same =>
          rw [same] at placed held
          exact placed.trans (grows_bindTargets _ _ (held _ rfl) targets)
  | .alias target _, _, _, _, sound, _ =>
    grows_placeAlias _ _ target fun _ found => sound.made.sound.root.producer?_mem found
  | .namedStyle name block, _, _, work, _, declares =>
    grows_placeStyle _ _ work (declares name block rfl) block
  | .styleBinding _ _, _, _, work, _, _ => .single (.bindStyles work.level _ _) rfl
  | .level ⟨name, statements, arguments, style⟩, _, _, _, sound, _ =>
    sound.grows_nest _ _ arguments name style fun inside =>
      Sound.grows_placeAll resolves gives statements _ inside fun _ _ _ _ _ => trivial
  | .fetched source, _, _, _, sound, _ => sound.grows_placeImport _ resolves gives source
  | .reference path, _, _, work, _, _ => grows_report _ _ work (.noEffect path)
termination_by structural statement => statement

/-- Statements change the level at hand by single changes, and take no warning back. -/
theorem Sound.grows_placeAll (resolves : resolve.Sound keeps) (gives : resolve.Gives absorbed) :
    ∀ (statements : List (Spanned Statement)) (named : String → Prop) {start : IdSupply}
    {work : Work σ}, work.Sound keeps old start →
    (∀ statement ∈ statements, statement.value.Declares named) →
    work.Grows named absorbed (Work.placeAll resolve statements work)
  | [], _, _, work, _, _ => .refl work
  | ⟨statement, _⟩ :: rest, _, _, _, sound, declare =>
    (Sound.grows_place resolves gives statement _ sound (declare _ List.mem_cons_self)).trans
      (Sound.grows_placeAll resolves gives rest _ (sound.place resolves statement)
        fun later held => declare later (List.mem_cons_of_mem _ held))
termination_by structural statements => statements

end

/-- Statements change the level by single changes, whatever styles they declare and whatever they
import. -/
theorem Sound.placeAll_grows (sound : work.Sound keeps old start) (resolves : resolve.Sound keeps)
    (statements : List (Spanned Statement)) :
    work.Grows (fun _ => True) (fun _ => True) (Work.placeAll resolve statements work) :=
  sound.grows_placeAll resolves (fun _ _ _ _ _ => trivial) statements _ fun _ _ _ _ _ => trivial

end Imports

end Work

end RecipeGraph
