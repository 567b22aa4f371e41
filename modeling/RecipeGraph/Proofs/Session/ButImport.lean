/-
# Levels that differ in one imported location

How a level came about shows in the locations it has imported. A location may be left out of the
comparison: of two levels that differ in it and in nothing else, any further statements make two
levels of the same kind. Two recipes may then be compared that import a different number of
locations, with any resolvers for the same loader.
-/

import RecipeGraph.Proofs.Build.Overlay
import RecipeGraph.Proofs.Session.Rooted

namespace RecipeGraph

variable {σ τ : Type}

/-! ### Leaving out a location -/

namespace OrderedSet

variable {α : Type} [DecidableEq α]

/-- The set without one value. -/
def without (set : OrderedSet α) (value : α) : OrderedSet α :=
  ⟨set.members.filter (· ≠ value)⟩

theorem without_insert_self (set : OrderedSet α) (value : α) :
    (set.insert value).without value = set.without value := by
  unfold insert
  split
  · rfl
  · simp [without]

theorem without_insert_of_ne (set : OrderedSet α) {value other : α} (different : other ≠ value) :
    (set.insert other).without value = (set.without value).insert other := by
  by_cases present : other ∈ set.members
  · have kept : other ∈ (set.without value).members := by simp [without, present, different]
    rw [insert, if_pos present, insert, if_pos kept]
  · have absent : other ∉ (set.without value).members := by simp [without, present]
    rw [insert, if_neg present, insert, if_neg absent]
    simp [without, different]

/-- Sets that agree but for one value still do so when the same values are added to both. -/
theorem without_insertAll_congr {set set' : OrderedSet α} {value : α}
    (same : set.without value = set'.without value) (values : List α) :
    (set.insertAll values).without value = (set'.insertAll values).without value := by
  induction values generalizing set set' with
  | nil => exact same
  | cons other rest step =>
      refine step ?_
      by_cases here : other = value
      · subst here
        rw [without_insert_self, without_insert_self, same]
      · rw [without_insert_of_ne set here, without_insert_of_ne set' here, same]

/-- Adding what is there already changes nothing. -/
theorem insertAll_of_mem {set : OrderedSet α} {values : List α}
    (held : ∀ value ∈ values, value ∈ set.members) : set.insertAll values = set := by
  induction values with
  | nil => rfl
  | cons value rest step =>
      rw [insertAll, insert, if_pos (held value List.mem_cons_self)]
      exact step fun other later => held other (List.mem_cons_of_mem _ later)

/-- Of two sets that grow alike, the larger one already holds what the smaller one started from. -/
theorem extend_insertAll_of_insert (set : OrderedSet α) (value : α) (values : List α) :
    (set.insert value).extend (set.insertAll values) = (set.insert value).insertAll values := by
  have kept : (set.insert value).extend set = set.insert value :=
    insertAll_of_mem fun other held => (mem_insert _ _ _).2 (.inr held)
  have split := extend_extend (set.insert value) set ⟨values⟩
  rw [kept] at split
  exact split.symm

end OrderedSet

namespace Dag

/-- The level without one location among those it has imported. -/
def withoutImport (dag : Dag) (location : String) : Dag :=
  { dag with imports := dag.imports.without location }

theorem Corresponds.withoutImport {R : Id → Id → Prop} {dag other : Dag}
    (related : Corresponds R dag other) (location : String) :
    Corresponds R (dag.withoutImport location) (other.withoutImport location) :=
  corresponds_iff.2 ⟨{ related.level with
    imports := congrArg (·.without location) related.level.imports }, related.children⟩

end Dag

/-! ### Statements behind an import -/

/-- Two builders at the same point have made graphs that are alike. -/
theorem Work.Matched.results {R : Id → Id → Prop} {start start' : IdSupply} {work : Work σ}
    {other : Work τ} (matched : Matched R start start' none none work other) :
    ResultsAlike start work.session.supply start' other.session.supply (.ok work.level)
      (.ok other.level) :=
  .given matched.pairing matched.level matched.placed matched.placed'

namespace Work

variable {keeps : σ → Prop} {old : List String} {start : IdSupply} {work : Work σ}

/-- The work with no warning given so far. -/
def afresh (work : Work σ) : Work σ :=
  { work with found := .empty }

theorem Sound.afresh (sound : work.Sound keeps old start) : work.afresh.Sound keeps old start :=
  ⟨sound.made, nofun, sound.session⟩

/-- What has been warned of before makes no difference to what is built. -/
theorem placeAll_afresh {resolve : Resolve σ} (resolves : resolve.Sound keeps)
    (sound : work.Sound keeps old start) (tidy : work.level.Tidy)
    (statements : List (Spanned Statement)) :
    (placeAll resolve statements work).level = (placeAll resolve statements work.afresh).level ∧
      (placeAll resolve statements work).session =
        (placeAll resolve statements work.afresh).session := by
  have overlay : Dag.Overlay (fun dag => dag) (· = .malformedEdge) fun _ => True := by
    have nothing : (fun dag => dag) = Dag.redress (fun name => name) (fun parent => parent)
        fun imports => imports := by
      funext dag
      cases dag
      rfl
    rw [nothing]
    exact Dag.overlay_redress fun _ _ => rfl
  have built : placeAll resolve statements (work.afresh.under (fun dag => dag) work.found.entries) =
      (placeAll resolve statements work.afresh).under (fun dag => dag) work.found.entries :=
    under_placeAll resolves statements overlay sound.afresh tidy
      (Sound.placeAll resolves statements sound.afresh).calm
  have same : work.afresh.under (fun dag => dag) work.found.entries = work :=
    congrArg (fun entries => { work with found := ⟨entries⟩ }) (List.append_nil _)
  rw [same] at built
  rw [built]
  exact ⟨rfl, rfl⟩

/-- Two builders whose levels correspond, except that one of them has imported a location after the
locations `used` that both had imported. -/
structure AlikeBut (location : String) (used : OrderedSet String) (R : Id → Id → Prop)
    (start start' : IdSupply) (work : Work σ) (other : Work τ) : Prop where
  pairing : Pairing R start work.session.supply start' other.session.supply
  level : work.level.Corresponds R { other.level with imports := work.level.imports }
  placed : work.level.parent = none
  placed' : other.level.parent = none
  imports : ∃ added, work.level.imports = (used.insert location).insertAll added ∧
    other.level.imports = used.insertAll added

namespace AlikeBut

variable {location : String} {used : OrderedSet String} {R : Id → Id → Prop}
  {start start' : IdSupply} {work : Work σ} {other : Work τ}

theorem bindTargets (alike : work.AlikeBut location used R start start' other) {id id' : Id}
    (same : R id id') (targets : List Target) :
    (work.bindTargets targets id).AlikeBut location used R start start'
      (other.bindTargets targets id') := by
  induction targets generalizing work other with
  | nil => exact alike
  | cons target rest step =>
      apply step
      exact ⟨alike.pairing, (alike.level.setVariable target.name.value same).setVariableStyle _ _,
        alike.placed, alike.placed', alike.imports⟩

/-- The locations that the second level has imported may be put where the first one has them, with
the additional one among them. -/
theorem corresponds (alike : work.AlikeBut location used R start start' other) :
    work.level.Corresponds R (other.level.redress (fun name => name) (fun parent => parent)
      (used.insert location).extend) := by
  obtain ⟨added, imports, imports'⟩ := alike.imports
  have imported : (used.insert location).extend other.level.imports = work.level.imports := by
    rw [imports', imports, OrderedSet.extend_insertAll_of_insert]
  have level := alike.level
  rw [← imported] at level
  exact level

/-- Once the additional location is left out, it does not matter whether the second level has it, no
matter how much has been added to that level. -/
theorem withoutImport_redress (alike : work.AlikeBut location used R start start' other)
    {named : String → Prop} {absorbed : Dag → Prop} {level : Dag}
    (grown : other.level.Grows named absorbed level) :
    (level.redress (fun name => name) (fun parent => parent)
      (used.insert location).extend).withoutImport location = level.withoutImport location := by
  obtain ⟨added, _, imports'⟩ := alike.imports
  obtain ⟨more, imports⟩ := grown.imports_eq
  have dropped : ((used.insert location).extend level.imports).without location =
      level.imports.without location := by
    rw [imports, imports', ← OrderedSet.insertAll_append, OrderedSet.extend_insertAll_of_insert]
    exact OrderedSet.without_insertAll_congr (OrderedSet.without_insert_self _ _) _
  exact congrArg (fun imports => { level with imports := imports }) dropped

/-- The same statements on both sides come to the same, up to the one location. -/
theorem placeAll {maxDepth : Nat} {old old' : List String} {made made' : IdSupply} {other : Work σ}
    (alike : work.AlikeBut location used R start start' other) (rooted : work.Rooted maxDepth old made)
    (rooted' : other.Rooted maxDepth old' made') (loader : Loader)
    (statements : List (Spanned Statement)) :
    let finished := Work.placeAll ((Resolver.plain loader).resolveWithin maxDepth) statements work
    let finished' := Work.placeAll ((Resolver.plain loader).resolveWithin maxDepth) statements other
    ResultsAlike start finished.session.supply start' finished'.session.supply
      (.ok (finished.level.withoutImport location))
      (.ok (finished'.level.withoutImport location)) := by
  intro finished finished'
  have resolves : ((Resolver.plain loader).resolveWithin maxDepth : Resolve σ).Sound fun _ => True :=
    (Resolver.plain_sound loader).resolveWithin maxDepth
  let overlaid := Dag.redress (fun name => name) (fun parent => parent) (used.insert location).extend
  have overlay : Dag.Overlay overlaid (· = .malformedEdge) fun _ => True :=
    Dag.overlay_redress fun set value => OrderedSet.extend_insert _ set value
  have matched : Matched R start start' none none work.afresh (other.afresh.under overlaid []) :=
    ⟨alike.pairing, alike.corresponds, rfl, alike.placed, alike.placed'⟩
  obtain ⟨_, finish⟩ := matched.placeAll_start loader statements rooted.chain rooted'.chain
  have sound' := rooted'.sound.afresh
  rw [under_placeAll resolves statements overlay sound' rooted'.tidy
    (Sound.placeAll resolves statements sound').calm] at finish
  obtain ⟨levels, sessions⟩ := placeAll_afresh resolves rooted.sound rooted.tidy statements
  obtain ⟨levels', sessions'⟩ := placeAll_afresh resolves rooted'.sound rooted'.tidy statements
  have left := alike.withoutImport_redress (rooted'.sound.placeAll_grows resolves statements).level
  show ResultsAlike start (Work.placeAll _ statements work).session.supply start'
    (Work.placeAll _ statements other).session.supply (.ok ((Work.placeAll _ statements
      work).level.withoutImport location)) (.ok (finished'.level.withoutImport location))
  rw [← left, levels, sessions, sessions', levels']
  exact .given finish.pairing (finish.level.withoutImport location) finish.placed finish.placed'

end AlikeBut

end Work

/-! ### Any resolver for a loader -/

/-- The resolver asks a given loader for the texts of recipes. -/
def Bundled.Loads (loader : Loader) : Bundled → Prop
  | .plain own => own = loader
  | .caching own => own = loader
  | .noImports => False

/-- Two recipes come to the same graph up to the identifiers, and up to one location that their
outermost levels may have imported, whatever resolvers for the loader compile them, and whatever
those have been asked for before. -/
def Loader.CompilesAlike (loader : Loader) (maxDepth : Nat) (location : String)
    (recipe recipe' : Recipe) : Prop :=
  ∀ bundled bundled' : Bundled, bundled.Loads loader → bundled'.Loads loader →
    ∀ earlier earlier' : List Request,
      let compiled := Compiler.compileRecipe ⟨bundled.resolver, maxDepth⟩ recipe
        (bundled.serve earlier).2
      let compiled' := Compiler.compileRecipe ⟨bundled'.resolver, maxDepth⟩ recipe'
        (bundled'.serve earlier').2
      ∃ permutation : Equiv.Perm Id,
        (compiled.1.graph.withoutImport location).rename permutation =
          compiled'.1.graph.withoutImport location

/-- Leaving out a location on both sides. -/
theorem ResultsAlike.withoutImport {start stop start' stop' : IdSupply} {graph graph' : Dag}
    (alike : ResultsAlike start stop start' stop' (.ok graph) (.ok graph')) (location : String) :
    ResultsAlike start stop start' stop' (.ok (graph.withoutImport location))
      (.ok (graph'.withoutImport location)) := by
  cases alike with
  | given pairing same root root' =>
      exact .given pairing (same.withoutImport location) root root'

/-- With every resolver for a loader, a recipe comes to the same as without memory. -/
theorem Bundled.compileRecipe_alike {loader : Loader} {bundled : Bundled}
    (loads : bundled.Loads loader) (earlier : List Request) (maxDepth : Nat) (recipe : Recipe)
    (session : Session σ) :
    let compiled := Compiler.compileRecipe ⟨.plain loader, maxDepth⟩ recipe session
    let compiled' := Compiler.compileRecipe ⟨bundled.resolver, maxDepth⟩ recipe
      (bundled.serve earlier).2
    ResultsAlike session.supply compiled.2.supply (bundled.serve earlier).2.supply
      compiled'.2.supply (.ok compiled.1.graph) (.ok compiled'.1.graph) := by
  intro compiled compiled'
  cases bundled with
  | plain own =>
      obtain rfl : own = loader := loads
      obtain ⟨R, matched⟩ := recipe.build_again own maxDepth session
        ((Bundled.plain own).serve earlier).2
      exact matched.results
  | caching own =>
      obtain rfl : own = loader := loads
      have faithful : Cache.Faithful σ own ((Bundled.caching own).serve earlier).2.store :=
        serveAll_faithful earlier session (Cache.faithful_empty own)
      obtain ⟨_, R, matched⟩ := recipe.build_follows
        (ImportChain.settled_start maxDepth) (Nat.zero_le _) session faithful
      exact matched.results
  | noImports => exact loads.elim

/-- It suffices to compile two recipes without memory in one session. -/
theorem Loader.compilesAlike_of_plain {loader : Loader} {maxDepth : Nat} {location : String}
    {recipe recipe' : Recipe} (session : Session σ)
    (alike : let compiled := Compiler.compileRecipe ⟨.plain loader, maxDepth⟩ recipe session
      let compiled' := Compiler.compileRecipe ⟨.plain loader, maxDepth⟩ recipe' session
      ResultsAlike session.supply compiled.2.supply session.supply compiled'.2.supply
        (.ok (compiled.1.graph.withoutImport location))
        (.ok (compiled'.1.graph.withoutImport location))) :
    loader.CompilesAlike maxDepth location recipe recipe' := by
  intro bundled bundled' loads loads' earlier earlier' compiled compiled'
  have first := bundled.compileRecipe_alike loads earlier maxDepth recipe session
  have second := bundled'.compileRecipe_alike loads' earlier' maxDepth recipe' session
  obtain ⟨permutation, same⟩ := (((first.withoutImport location).flip.comp alike).comp
    (second.withoutImport location)).exists_perm
  exact ⟨permutation, (Except.ok.inj same).symm⟩

/-- Two recipes that differ in a stretch of statements come to the same, up to a location, if the
levels differ in nothing else behind that stretch. -/
theorem Loader.compilesAlike_of_placeAll {loader : Loader} {maxDepth : Nat} {location : String}
    (before middle middle' after : List (Spanned Statement)) {used : OrderedSet String}
    {R : Id → Id → Prop}
    (alike : (loader.alone maxDepth ⟨before ++ middle⟩).AlikeBut location used R .start .start
      (loader.alone maxDepth ⟨before ++ middle'⟩)) :
    loader.CompilesAlike maxDepth location ⟨before ++ (middle ++ after)⟩
      ⟨before ++ (middle' ++ after)⟩ := by
  have results := alike.placeAll (loader.alone_rooted maxDepth _) (loader.alone_rooted maxDepth _)
    loader after
  dsimp only at results
  rw [← loader.alone_append, ← loader.alone_append, List.append_assoc, List.append_assoc] at results
  exact Loader.compilesAlike_of_plain (Session.start ()) results

end RecipeGraph
