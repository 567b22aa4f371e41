/-
# Aliases are transparent

Once a variable has a second name, every argument and every alias of the level may use either of the
two. The graph has the same nodes, nested levels, variables and edges, and the same warnings are
given. Only the edges of those arguments that use the other name are called after it and look like
it.

In one session the two graphs have the same identifiers. In two sessions they are the same up to a
renaming, since what a session has gone through shows in identifiers alone.
-/

import RecipeGraph.Proofs.Build.Alias
import RecipeGraph.Proofs.Data.Extension
import RecipeGraph.Proofs.Graph.Relabel
import RecipeGraph.Proofs.Session.Appending

namespace RecipeGraph

/-- An edge that is called after one variable, and the same edge called after another one. Both
variables stand for the element that the edge comes from. -/
structure Edge.Renamed (level : Dag) (x y : String) (edge other : Edge) : Prop where
  id : edge.id = other.id
  source : edge.source = other.source
  target : edge.target = other.target
  named : edge.name = x
  named' : other.name = y
  styled : edge.style = (level.variableStyle? (.single x)).getD .plain
  styled' : other.style = (level.variableStyle? (.single y)).getD .plain
  bound : level.variableIds.get? x = some edge.source
  bound' : level.variableIds.get? y = some edge.source

/-- Two levels are the same but for `n` edges, which are called after one variable here and after
another one there. -/
structure Dag.Renames (x y : String) (n : Nat) (level other : Dag) : Prop where
  same : other = { level with edges := other.edges }
  keys : level.edges.keys = other.edges.keys
  edges : AlikeBut Eq (Edge.Renamed level x y) n level.edges.values other.edges.values

variable {x y : String} {n : Nat} {level other : Dag}

theorem Dag.variableStyle?_single_rename (f : Id → Id) (level : Dag) (name : String) :
    (level.rename f).variableStyle? (.single name) = level.variableStyle? (.single name) := by
  rw [Dag.rename_eq]
  rfl

theorem Edge.Renamed.rename {edge edge' : Edge} (renamed : Edge.Renamed level x y edge edge')
    (f : Id → Id) : Edge.Renamed (level.rename f) x y (edge.rename f) (edge'.rename f) := by
  have bound {name : String} (bound : level.variableIds.get? name = some edge.source) :
      (level.rename f).variableIds.get? name = some (f edge.source) := by
    rw [Dag.rename_eq]
    exact (OrderedMap.get?_mapValues f level.variableIds name).trans (congrArg _ bound)
  exact
    { id := congrArg f renamed.id
      source := congrArg f renamed.source
      target := congrArg f renamed.target
      named := renamed.named
      named' := renamed.named'
      styled := level.variableStyle?_single_rename f x ▸ renamed.styled
      styled' := level.variableStyle?_single_rename f y ▸ renamed.styled'
      bound := bound renamed.bound
      bound' := bound renamed.bound' }

/-- Identifiers may be exchanged in both levels. -/
theorem Dag.Renames.rename (renames : level.Renames x y n other) (f : Id → Id) :
    (level.rename f).Renames x y n (other.rename f) := by
  have edges (dag : Dag) : (dag.rename f).edges = dag.edges.mapEntries f (·.rename f) := by
    rw [Dag.rename_eq]
  refine ⟨?_, ?_, ?_⟩
  · calc other.rename f
        = Dag.rename f { level with edges := other.edges } := congrArg _ renames.same
      _ = { level.rename f with edges := (other.rename f).edges } := by
          rw [edges, Dag.rename_eq, Dag.rename_eq]
  · rw [edges, edges, OrderedMap.keys_mapEntries, OrderedMap.keys_mapEntries, renames.keys]
  · rw [edges, edges, OrderedMap.values_mapEntries, OrderedMap.values_mapEntries]
    exact renames.edges.map (fun _ _ same => congrArg _ same) fun _ _ renamed => renamed.rename f

/-! ### After an alias -/

namespace Work

variable {σ : Type} {keeps : σ → Prop} {old : List String} {start : IdSupply} {work : Work σ}
  {resolve : Resolve σ}

/-- An argument that names a variable of the level. -/
def naming (level : Dag) (name : String) (element : Id) : Incoming where
  source := element
  name := name
  style := (level.variableStyle? (.single name)).getD .plain
  span := default

theorem supplies_naming {level : Dag} {name : String} {element : Id}
    (bound : level.variableIds.get? name = some element) :
    level.Supplies (naming level name element) :=
  ⟨bound, rfl⟩

theorem supplies_placeAll {incoming : Incoming} (resolve : Resolve σ)
    (statements : List (Spanned Statement))
    (spares : ∀ statement ∈ statements, statement.value.Spares incoming.name) {work : Work σ}
    (supplied : work.level.Supplies incoming) :
    (placeAll resolve statements work).level.Supplies incoming := by
  induction statements generalizing work with
  | nil => exact supplied
  | cons statement rest step =>
      obtain ⟨here, later⟩ := List.forall_mem_cons.1 spares
      exact step later (supplies_place supplied resolve here)

/-- Two variables that stand for one element may be named for each other. -/
theorem Sound.renames_placeAll (sound : work.Sound keeps old start) (resolves : resolve.Sound keeps)
    {x y : String} {element : Id} (x_bound : work.level.variableIds.get? x = some element)
    (y_bound : work.level.variableIds.get? y = some element) {n : Nat}
    {statements statements' : List (Spanned Statement)}
    (reworded : Statement.ListRewords (some (x, y)) n statements statements')
    (spares : ∀ statement ∈ statements, statement.value.Spares x ∧ statement.value.Spares y) :
    let after := Work.placeAll resolve statements work
    let after' := Work.placeAll resolve statements' work
    after.level.Renames x y n after'.level ∧
      after.found.entries.map Diagnostic.unplaced = after'.found.entries.map Diagnostic.unplaced ∧
      after.chain = after'.chain ∧ after.session = after'.session := by
  intro after after'
  let one := naming work.level x element
  let other := naming work.level y element
  have knows : Knows (some (x, y)) one other work.level := by
    rintro _ _ swapped
    obtain ⟨rfl, rfl⟩ := Prod.mk.inj (Option.some.inj swapped)
    exact ⟨rfl, rfl, supplies_naming x_bound, supplies_naming y_bound⟩
  have spared : ∀ statement ∈ statements, ∀ a b, some (x, y) = some (a, b) →
      statement.value.Spares a ∧ statement.value.Spares b := by
    rintro statement held _ _ swapped
    obtain ⟨rfl, rfl⟩ := Prod.mk.inj (Option.some.inj swapped)
    exact spares statement held
  have joined : one.source = other.source := rfl
  have alike := Alike.placeAll joined resolves reworded spared (.refl one other work) sound knows
  rw [Nat.zero_add] at alike
  have one_known : after.level.Supplies one := supplies_placeAll resolve statements
    (fun statement held => (spares statement held).1) (supplies_naming x_bound)
  have other_known : after.level.Supplies other := supplies_placeAll resolve statements
    (fun statement held => (spares statement held).2) (supplies_naming y_bound)
  refine ⟨⟨alike.level, alike.keys, alike.edges.imp ?_⟩, alike.found, alike.chain.symm,
    alike.session.symm⟩
  rintro _ _ ⟨id, target, rfl, rfl⟩
  exact ⟨rfl, rfl, rfl, rfl, rfl, one_known.2.symm, other_known.2.symm, one_known.1, other_known.1⟩

/-- After an alias both names stand for one element. -/
theorem placeAlias_bound {y : String} {element : Id}
    (bound : work.level.variableIds.get? y = some element) (target : Target) (span : Span) :
    let after := work.placeAlias target ⟨.single y, span⟩
    after.level.variableIds.get? target.name.value = some element ∧
      after.level.variableIds.get? y = some element := by
  have found : work.level.producer? (.single y) = some element := bound
  intro after
  have bind : after.level.variableIds =
      work.level.variableIds.insert target.name.value element := by
    show (work.placeAlias target _).level.variableIds = _
    unfold placeAlias
    dsimp only
    rw [found]
    rfl
  rw [bind]
  refine ⟨OrderedMap.get?_insert_self _ _ _, ?_⟩
  rw [OrderedMap.get?_insert]
  split
  · rfl
  · exact bound

end Work

/-- Building a recipe with an alias in it, up to the alias and from there on. -/
theorem Recipe.build_alias_eq {σ : Type} (resolve : Resolve σ) (chain : ImportChain)
    (session : Session σ) (first second : List (Spanned Statement)) (target : Target)
    (path : Spanned QualifiedPath) (span : Span) :
    Recipe.build ⟨first ++ ⟨.alias target path, span⟩ :: second⟩ resolve chain session =
      Work.placeAll resolve second
        ((Recipe.build ⟨first⟩ resolve chain session).placeAlias target path) :=
  Work.placeAll_append resolve first _ _

namespace Bundled

/-- Aliases are transparent. After `x = y` it makes no difference which of the two variables the
statements that follow name in arguments and on the right of aliases, if they bind neither of them
anew: the level has the same nodes, nested levels, variables and registries, and the same edges in
the same order between the same elements. As many edges as there are arguments in which `y` was
named for `x` are called after `y` and look like it, instead of `x`. The diagnostics are the same up
to spans. In one session the identifiers are the same, too; in two sessions of a resolver, they are
the same up to a renaming. -/
theorem aliases_transparent {bundled : Bundled} {session : Session Cache}
    (reached : bundled.Reached session) (chain : ImportChain) {first : List (Spanned Statement)}
    (target : Target) {y : String}
    (bound : (bundled.buildUnder chain first session).level.variableIds.contains y = true) {n : Nat}
    {second second' : List (Spanned Statement)}
    (reworded : Statement.ListRewords (some (target.name.value, y)) n second second')
    (spares : ∀ statement ∈ second,
      statement.value.Spares target.name.value ∧ statement.value.Spares y) (mark span : Span) :
    let aliased : Spanned Statement := ⟨.alias target ⟨.single y, mark⟩, span⟩
    let one := bundled.buildUnder chain (first ++ aliased :: second) session
    let other := bundled.buildUnder chain (first ++ aliased :: second')
    (one.level.Renames target.name.value y n (other session).level ∧
      one.found.entries.map Diagnostic.unplaced =
        (other session).found.entries.map Diagnostic.unplaced) ∧
    (chain.Settled → chain.depth ≤ chain.maxDepth → ∀ session', bundled.Reached session' →
      ∃ permutation : Equiv.Perm Id,
        (one.level.rename permutation).Renames target.name.value y n (other session').level ∧
        one.found.entries.map Diagnostic.unplaced =
          (other session').found.entries.map Diagnostic.unplaced) := by
  intro aliased one other
  have resolves := bundled.resolver_sound.resolveWithin (chain.maxDepth - chain.depth)
  have here : one.level.Renames target.name.value y n (other session).level ∧
      one.found.entries.map Diagnostic.unplaced =
        (other session).found.entries.map Diagnostic.unplaced := by
    obtain ⟨element, bound⟩ := Option.isSome_iff_exists.1 bound
    have sound := (Recipe.build_sound resolves ⟨first⟩ chain reached.sound).placeAlias target
      ⟨.single y, mark⟩
    obtain ⟨x_bound, y_bound⟩ := Work.placeAlias_bound bound target mark
    have same := sound.renames_placeAll resolves x_bound y_bound reworded spares
    have split : one = _ := Recipe.build_alias_eq _ chain session first second target _ span
    have split' : other session = _ :=
      Recipe.build_alias_eq _ chain session first second' target _ span
    rw [split, split']
    exact ⟨same.1, same.2.1⟩
  refine ⟨here, fun settled shallow session' reached' => ?_⟩
  obtain ⟨R, matched⟩ := reached.build_again reached' settled shallow (first ++ aliased :: second')
  obtain ⟨permutation, renamed⟩ := matched.exists_perm
  refine ⟨permutation, ?_, here.2.trans (congrArg _ (congrArg _ matched.found))⟩
  have both := here.1.rename permutation
  rwa [renamed] at both

/-- A recipe up to an alias. -/
def mined : List (Spanned Statement) :=
  (Recipe.parseLenient "salt = mine()").1.statements

/-- The alias, with a style of its own. -/
def rock : Target := ⟨⟨"rock", ⟨14, 18⟩⟩, some ⟨[], [.property "color" "pink"]⟩⟩

/-- An argument that names a variable. -/
def mention (name : String) : Argument :=
  .reference ⟨.single name, ⟨0, name.length⟩⟩

/-- A call on the variable, under the name that it has for the alias. -/
def chopped : Spanned Call :=
  ⟨⟨⟨"chop", ⟨4, 8⟩⟩, [mention "rock"], none⟩, ⟨4, 14⟩⟩

/-- What is made of the variable: it is used and chopped, has a third name, and is passed to a
namespace together with something that is not there. Where `name` stands, either of the two names
may stand. -/
def dishes (name : String) : List (Spanned Statement) :=
  [⟨.call ⟨⟨"use", ⟨0, 3⟩⟩, [mention name, .call chopped], none⟩, ⟨0, 20⟩⟩,
    ⟨.alias ⟨⟨"spice", ⟨0, 5⟩⟩, none⟩ ⟨.single name, ⟨8, 12⟩⟩, ⟨0, 12⟩⟩,
    ⟨.level ⟨none, [], [mention "spice", mention name, mention "ghost"], none⟩, ⟨0, 30⟩⟩]

theorem dishes_reworded :
    Statement.ListRewords (some ("rock", "salt")) 2 (dishes "rock") (dishes "salt") := by
  have kept (name : String) :
      Argument.Rewords (some ("rock", "salt")) 0 (mention name) (mention name) := .reference rfl
  have replaced : Argument.Rewords (some ("rock", "salt")) 1 (mention "rock") (mention "salt") :=
    .replaced rfl
  show Statement.ListRewords _ (1 + (0 + (1 + 0))) _ _
  refine .cons (.call ?used) (.cons (.replacedAlias rfl rfl) (.cons (.level ?passed) .nil))
  case used =>
    have same : Argument.Rewords (some ("rock", "salt")) 0 (.call chopped) (.call chopped) :=
      .call rfl (.cons (kept "rock") .nil) rfl
    exact .call rfl (.cons replaced (.cons same .nil)) rfl
  case passed =>
    have arguments :=
      Argument.ListRewords.cons (kept "spice") (.cons replaced (.cons (kept "ghost") .nil))
    exact ⟨rfl, rfl, arguments, rfl⟩

theorem dishes_spare : ∀ statement ∈ dishes "rock",
    statement.value.Spares "rock" ∧ statement.value.Spares "salt" := by
  have apart : "spice" ≠ "rock" ∧ "spice" ≠ "salt" := by decide
  intro statement held
  simp only [dishes, List.mem_cons, List.not_mem_nil, or_false] at held
  rcases held with rfl | rfl | rfl
  · exact ⟨trivial, trivial⟩
  · exact apart
  · exact ⟨trivial, trivial⟩

private theorem dishes_edges :
    let build := fun name => pantry.buildUnder (.start 4)
      (mined ++ ⟨.alias rock ⟨.single "salt", ⟨34, 38⟩⟩, ⟨14, 38⟩⟩ :: dishes name)
    (pantry.buildUnder (.start 4) mined (.start .empty)).level.variableIds.contains "salt" = true ∧
      ((build "rock" (.start .empty)).level.edges.values.map Edge.name =
          ["rock", "rock", "", "spice", "rock"] ∧
        (build "salt" (.start .empty)).level.edges.values.map Edge.name =
          ["rock", "salt", "", "spice", "salt"]) := by
  decide +kernel

/-- Two of five edges are called after another variable, and the variable that is not there is
reported in both cases. The second time, the session has been used before. -/
theorem aliases_transparent_of_dishes :
    let build := fun name => pantry.buildUnder (.start 4)
      (mined ++ ⟨.alias rock ⟨.single "salt", ⟨34, 38⟩⟩, ⟨14, 38⟩⟩ :: dishes name)
    let used := (pantry.buildUnder (.start 4) breakfast.1 (.start .empty)).session
    ((build "rock" (.start .empty)).level.edges.values.map Edge.name =
          ["rock", "rock", "", "spice", "rock"] ∧
        (build "salt" (.start .empty)).level.edges.values.map Edge.name =
          ["rock", "salt", "", "spice", "salt"]) ∧
      (build "rock" (.start .empty)).level.Renames "rock" "salt" 2
        (build "salt" (.start .empty)).level ∧
      ∃ permutation : Equiv.Perm Id,
        ((build "rock" (.start .empty)).level.rename permutation).Renames "rock" "salt" 2
          (build "salt" used).level := by
  obtain ⟨bound, edges⟩ := dishes_edges
  have transparent := aliases_transparent (.start : pantry.Reached _) (.start 4) rock bound
    dishes_reworded dishes_spare ⟨34, 38⟩ ⟨14, 38⟩
  obtain ⟨permutation, renamed, _⟩ :=
    transparent.2 (ImportChain.settled_start 4) (by decide) _ reached_breakfast
  exact ⟨edges, transparent.1.1, permutation, renamed⟩

end Bundled

end RecipeGraph
