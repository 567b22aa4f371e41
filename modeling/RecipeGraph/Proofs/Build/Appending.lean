/-
# What was built stays in front

Statements go on from the level that they find. What the level holds by then, its nodes, its edges
and the levels nested in it, stays as it is and in front of everything that is added; a name that is
registered again keeps its place, whatever it stands for afterwards. The same holds of warnings.

Two facts come together here. Elements and edges are only added, which is what accounting for every
statement says of a sound level. Registries may be overwritten, but each single change of a level
keeps the order of their keys, and therefore any number of changes does.
-/

import RecipeGraph.Proofs.Build.Additions
import RecipeGraph.Proofs.Build.Growth

namespace RecipeGraph

/-! ### Keys keep their places -/

namespace OrderedMap

variable {κ ν : Type}

/-- Where values are kept under keys of their own, the values in front are the entries in front. -/
theorem entries_prefix_of_values {map other : OrderedMap κ ν} {key : ν → κ}
    (keyed : ∀ entry ∈ map.entries, entry.1 = key entry.2)
    (keyed' : ∀ entry ∈ other.entries, entry.1 = key entry.2) (values : map.values <+: other.values) :
    map.entries <+: other.entries := by
  have entries : ∀ {map : OrderedMap κ ν}, (∀ entry ∈ map.entries, entry.1 = key entry.2) →
      map.values.map (fun value => (key value, value)) = map.entries := by
    intro map keyed
    have same : ∀ entry ∈ map.entries, (key entry.2, entry.2) = entry := fun entry held =>
      Prod.ext (keyed entry held).symm rfl
    rw [OrderedMap.values, List.map_map]
    exact (List.map_congr_left same).trans (List.map_id' _)
  rw [← entries keyed, ← entries keyed']
  exact values.map _

variable [DecidableEq κ]

theorem keys_prefix_insert (map : OrderedMap κ ν) (key : κ) (value : ν) :
    map.keys <+: (map.insert key value).keys := by
  rw [keys_insert]
  split
  · exact List.prefix_rfl
  · exact List.prefix_append _ _

theorem keys_prefix_insertAll (map : OrderedMap κ ν) (pairs : List (κ × ν)) :
    map.keys <+: (map.insertAll pairs).keys := by
  induction pairs generalizing map with
  | nil => exact List.prefix_rfl
  | cons pair rest step => exact (map.keys_prefix_insert pair.1 pair.2).trans (step _)

end OrderedMap

theorem OrderedSet.members_prefix_insertAll {α : Type} [DecidableEq α] (set : OrderedSet α)
    (values : List α) : set.members <+: (set.insertAll values).members := by
  induction values generalizing set with
  | nil => exact List.prefix_rfl
  | cons value rest step =>
      refine List.IsPrefix.trans ?_ (step (set.insert value))
      unfold OrderedSet.insert
      split
      · exact List.prefix_rfl
      · exact List.prefix_append _ _

/-! ### Levels that go on from each other -/

namespace Dag

/-- The names registered on one level are the first ones of the other, in the same order. What they
stand for may have changed. -/
structure KeepsNames (dag later : Dag) : Prop where
  parent : later.parent = dag.parent
  variableIds : dag.variableIds.keys <+: later.variableIds.keys
  variableStyles : dag.variableStyles.keys <+: later.variableStyles.keys
  styles : dag.styles.keys <+: later.styles.keys
  bindings : dag.bindings.keys <+: later.bindings.keys
  imports : dag.imports.members <+: later.imports.members

/-- The other level begins with this one: it is the same level, its first nodes, edges and nested
levels are those of this one, unchanged, and so are the first names that it registers. -/
structure Begins (dag later : Dag) : Prop extends dag.KeepsNames later where
  id : later.id = dag.id
  name : later.name = dag.name
  style : later.style = dag.style
  nodes : dag.nodes.entries <+: later.nodes.entries
  edges : dag.edges.entries <+: later.edges.entries
  children : dag.children.entries <+: later.children.entries

variable {named : String → Prop} {absorbed : Dag → Prop} {dag middle later : Dag}

theorem KeepsNames.refl (dag : Dag) : dag.KeepsNames dag :=
  ⟨rfl, List.prefix_rfl, List.prefix_rfl, List.prefix_rfl, List.prefix_rfl, List.prefix_rfl⟩

theorem KeepsNames.trans (one : dag.KeepsNames middle) (two : middle.KeepsNames later) :
    dag.KeepsNames later where
  parent := two.parent.trans one.parent
  variableIds := one.variableIds.trans two.variableIds
  variableStyles := one.variableStyles.trans two.variableStyles
  styles := one.styles.trans two.styles
  bindings := one.bindings.trans two.bindings
  imports := one.imports.trans two.imports

/-- A single change keeps the names, whether it registers new ones or old ones anew. -/
theorem Change.keepsNames (change : dag.Change named absorbed later) : dag.KeepsNames later := by
  cases change with
  | addEdge added =>
      rw [(addEdge_ok added).2.2]
      exact { KeepsNames.refl dag with }
  | bind name held style =>
      exact { KeepsNames.refl dag with
        variableIds := OrderedMap.keys_prefix_insert _ _ _
        variableStyles := OrderedMap.keys_prefix_insert _ _ _ }
  | setStyle allowed properties =>
      exact { KeepsNames.refl dag with styles := OrderedMap.keys_prefix_insert _ _ _ }
  | bindStyles keyword tags =>
      exact { KeepsNames.refl dag with bindings := OrderedMap.keys_prefix_insert _ _ _ }
  | addImport location =>
      exact { KeepsNames.refl dag with
        imports := OrderedSet.members_prefix_insertAll dag.imports [location] }
  | @merge other allowed sound apart =>
      exact ⟨parent_merge _ _, OrderedMap.keys_prefix_insertAll _ _,
        OrderedMap.keys_prefix_insertAll _ _, OrderedMap.keys_prefix_insertAll _ _,
        OrderedMap.keys_prefix_insertAll _ _, OrderedSet.members_prefix_insertAll _ _⟩
  | _ => exact { KeepsNames.refl dag with }

/-- Any number of changes keeps the names. -/
theorem Grows.keepsNames (grown : dag.Grows named absorbed later) : dag.KeepsNames later := by
  induction grown with
  | refl => exact .refl dag
  | tail _ change step => exact step.trans change.keepsNames

end Dag

/-! ### Statements go on from what is there -/

namespace Work

variable {σ : Type} {keeps : σ → Prop} {old : List String} {start : IdSupply} {resolve : Resolve σ}
  {work after : Work σ}

/-- A sound level begins another sound one to which elements and edges have been added. -/
theorem Gains.begins {addition : Addition} (gains : work.Gains addition after)
    (sound : work.level.Sound) (sound' : after.level.Sound)
    (names : work.level.KeepsNames after.level) : work.level.Begins after.level where
  toKeepsNames := names
  id := gains.id
  name := gains.name
  style := gains.style
  nodes := OrderedMap.entries_prefix_of_values sound.nodes_keyed sound'.nodes_keyed
    (gains.nodes ▸ List.prefix_append _ _)
  edges := OrderedMap.entries_prefix_of_values sound.edges_keyed sound'.edges_keyed
    (gains.edges ▸ List.prefix_append _ _)
  children := OrderedMap.entries_prefix_of_values sound.children_keyed sound'.children_keyed
    (gains.children ▸ List.prefix_append _ _)

/-- Whatever statements are built next, the level begins with what it was before, and the warnings
with those given before. -/
theorem Sound.placeAll_begins (sound : work.Sound keeps old start) (resolves : resolve.Sound keeps)
    {scope : Scope} (described : scope.Describes work.level) (statements : List (Spanned Statement)) :
    work.level.Begins (Work.placeAll resolve statements work).level ∧
      work.found.entries <+: (Work.placeAll resolve statements work).found.entries := by
  obtain ⟨addition, -, gains⟩ := sound.brings_placeAll resolves statements described
  have sound' := sound.placeAll resolves statements
  have grown := sound.placeAll_grows resolves statements
  refine ⟨gains.begins sound.made.sound.root sound'.made.sound.root grown.level.keepsNames, ?_⟩
  rw [gains.found]
  exact List.prefix_append _ _

end Work

/-- In one session, building some statements and then others goes on from what building the first
ones alone comes to. -/
theorem Recipe.build_append_begins {σ : Type} {keeps : σ → Prop} {old : List String}
    {resolve : Resolve σ} (resolves : resolve.Sound keeps) (chain : ImportChain)
    {session : Session σ} (sound : session.Sound keeps old)
    (first second : List (Spanned Statement)) :
    let alone := Recipe.build ⟨first⟩ resolve chain session
    let whole := Recipe.build ⟨first ++ second⟩ resolve chain session
    alone.level.Begins whole.level ∧ alone.found.entries <+: whole.found.entries := by
  intro alone whole
  have split : whole = Work.placeAll resolve second alone := Work.placeAll_append resolve first second _
  have opened : Work.Sound keeps old session.supply
      ⟨.empty session.freshId.1 "", .empty, chain, session.freshId.2⟩ :=
    ⟨.empty session.supply "", nofun, ⟨sound.silent, sound.store⟩⟩
  obtain ⟨addition, -, gains⟩ := opened.brings_placeAll resolves first (.empty session.freshId.1 "")
  have described := gains.describes (.empty session.freshId.1 "")
  rw [split]
  exact (opened.placeAll resolves first).placeAll_begins resolves described second

end RecipeGraph
