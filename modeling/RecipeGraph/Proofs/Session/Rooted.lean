/-
# Recipes compiled for their own sake

The chain of a recipe that is compiled for its own sake is empty, and stays so however much the
recipe imports. A text that it imports, and below which nothing is cut off, comes to the same graph
as when it is built under that empty chain itself.
-/

import RecipeGraph.Proofs.Build.Growth
import RecipeGraph.Proofs.Session.Exact

namespace RecipeGraph

variable {σ τ : Type}

/-! ### The empty chain -/

/-- Whatever a recipe imports that is compiled for its own sake, its chain stays empty. -/
theorem Resolver.plain_keeps_start (loader : Loader) (maxDepth : Nat) :
    Work.Preserves ((plain loader : Resolver σ).resolveWithin maxDepth)
      (fun outside => outside.chain = .start maxDepth) := by
  intro location chain session same
  change chain = .start maxDepth at same
  subst same
  cases admitted : (ImportChain.start maxDepth).mayEnter location with
  | error failure =>
      rw [Resolve.attempt_of_refused admitted]
      rfl
  | ok =>
      have entered : ((ImportChain.start maxDepth).entering location).Entered maxDepth :=
        ImportChain.entered_entering rfl admitted
      rw [Resolve.attempt_of_admitted admitted]
      exact (plain_explores loader maxDepth location _ session entered).explored.leave_eq entered

/-- Under empty chains, builders at the same point stay there. -/
theorem Work.Matched.placeAll_start {R : Id → Id → Prop} {start start' : IdSupply}
    {parent parent' : Option Id} {work : Work σ} {other : Work τ}
    (matched : Matched R start start' parent parent' work other) (loader : Loader)
    (statements : List (Spanned Statement)) {maxDepth : Nat} (chain : work.chain = .start maxDepth)
    (chain' : other.chain = .start maxDepth) :
    ∃ S, Matched S start start' parent parent'
      (Work.placeAll ((Resolver.plain loader).resolveWithin maxDepth) statements work)
      (Work.placeAll ((Resolver.plain loader).resolveWithin maxDepth) statements other) := by
  have chains : work.chain.SameWay 0 other.chain := by
    rw [chain, chain']
    exact ⟨rfl, rfl, rfl⟩
  rcases Matched.placeAll ((Resolver.plain_alongside loader maxDepth).inStep 0) (fun _ _ _ => id)
    statements matched chains with away | ⟨_, S, _, finish, _⟩
  · exact away.elim
  · exact ⟨S, finish⟩

/-- A recipe that is compiled twice for its own sake comes to the same. -/
theorem Recipe.build_again (loader : Loader) (maxDepth : Nat) (recipe : Recipe) (session : Session σ)
    (session' : Session τ) :
    let work := recipe.build ((Resolver.plain loader).resolveWithin maxDepth) (.start maxDepth) session
    let other := recipe.build ((Resolver.plain loader).resolveWithin maxDepth) (.start maxDepth)
      session'
    ∃ R, Work.Matched R session.supply session'.supply none none work other := by
  have opened : Work.Matched _ session.supply session'.supply none none
      ⟨.empty session.freshId.1 "", .empty, .start maxDepth, session.freshId.2⟩
      ⟨.empty session'.freshId.1 "", .empty, .start maxDepth, session'.freshId.2⟩ :=
    ⟨Pairing.one session.supply session'.supply, .empty ⟨rfl, rfl⟩ "", rfl, rfl, rfl⟩
  exact opened.placeAll_start loader recipe.statements rfl rfl

section Imported

variable {loader : Loader} {maxDepth : Nat} {location source : String} {recipe : Recipe}

/-- A text below which nothing is cut off is built alike as an import and for its own sake. -/
theorem Recipe.build_imported (room : 0 < maxDepth) (loaded : loader location = .ok source)
    (read : Recipe.parse source = .ok recipe) (whole : ¬ loader.Cuts maxDepth [location])
    (session : Session σ) (session' : Session τ) :
    let imported := recipe.build ((Resolver.plain loader).resolveWithin (maxDepth - 1))
      ((ImportChain.start maxDepth).entering location) session
    let alone := recipe.build ((Resolver.plain loader).resolveWithin maxDepth) (.start maxDepth)
      session'
    ∃ R, Work.Matched R session.supply session'.supply none none imported alone := by
  intro imported alone
  obtain ⟨depth, rfl⟩ : ∃ depth, maxDepth = depth + 1 := ⟨maxDepth - 1, by omega⟩
  have admitted : (ImportChain.start (depth + 1)).mayEnter location = .ok () :=
    ImportChain.mayEnter_eq_ok_iff.2 ⟨rfl, room⟩
  have entered : ((ImportChain.start (depth + 1)).entering location).Entered (depth + 1) :=
    ImportChain.entered_entering rfl admitted
  have way : ((ImportChain.start (depth + 1)).entering location).way = [location] :=
    ImportChain.way_entering _ _
  have surveyed : ImportChain.Surveyed loader ((ImportChain.start (depth + 1)).entering location)
      imported.chain ([] ++ recipe.locations) :=
    ImportChain.Surveyed.attempts entered (Resolver.plain_explores loader depth)
      (Resolver.plain_surveys loader depth) (recipe.attempts_build _ _ session) (.nothing entered)
  have clear : imported.chain.reach.truncated = false := by
    rw [← Bool.not_eq_true, surveyed.truncated, way]
    rw [Loader.cuts_iff loaded read] at whole
    exact whole
  have fits : imported.chain.reach.fits (ImportChain.start (depth + 1)) = true := by
    have height := surveyed.height
    rw [ImportChain.depth_entering, ImportChain.maxDepth_entering] at height
    refine Reach.fits_iff.2 ⟨clear, ?_, fun _ _ => rfl⟩
    exact Nat.le_trans (Nat.add_le_add_right (Nat.zero_le _) _) height
  rcases recipe.build_alike (Parallel.inStep entered rfl fits (Resolver.plain_explores loader depth)
    (Resolver.plain_independent loader depth (depth + 1)))
    (Exceeds.forGood entered (Resolver.plain_explores loader depth)) ⟨.refl entered, rfl⟩
    with ⟨_, beyond⟩ | ⟨_, matched⟩
  · exact absurd (Reach.Within.refl _) beyond
  · exact matched

/-- What an import comes to that a recipe makes under its empty chain: the graph of the text as it is
built under the chain of that import. -/
theorem Resolver.plain_attempt_found (room : 0 < maxDepth) (loaded : loader location = .ok source)
    (read : Recipe.parse source = .ok recipe) (session : Session σ) :
    ∃ noted after : Session σ,
      let imported := recipe.build ((plain loader).resolveWithin (maxDepth - 1))
        ((ImportChain.start maxDepth).entering location) noted
      noted.supply = session.supply ∧ after.supply = imported.session.supply ∧
        ((plain loader).resolveWithin maxDepth).attempt location (.start maxDepth) session =
          ⟨.ok imported.level, .start maxDepth, after⟩ := by
  obtain ⟨depth, rfl⟩ : ∃ depth, maxDepth = depth + 1 := ⟨maxDepth - 1, by omega⟩
  have admitted : (ImportChain.start (depth + 1)).mayEnter location = .ok () :=
    ImportChain.mayEnter_eq_ok_iff.2 ⟨rfl, room⟩
  let chain := (ImportChain.start (depth + 1)).entering location
  let noted := (session.note (.entered location chain.locations)).note (.loaded location true)
  let imported := recipe.build ((plain loader).resolveWithin depth) chain noted
  let after := imported.session.note (.left location chain.depth true imported.chain.reach)
  have attempted : ((plain loader).resolveWithin (depth + 1)).attempt location (.start (depth + 1))
      session = ⟨.ok imported.level, imported.chain.leave, after⟩ := by
    rw [Resolve.attempt_of_admitted admitted, plain_resolveWithin_of_found depth _ loaded,
      compileSource, read]
    rfl
  have left : imported.chain.leave = .start (depth + 1) := by
    have kept := plain_keeps_start loader (depth + 1) location (.start (depth + 1)) session rfl
    rw [attempted] at kept
    exact kept
  exact ⟨noted, after, rfl, rfl, attempted.trans (congrArg (Fetched.mk _ · after) left)⟩

/-- An import with a location of a recipe that is compiled for its own sake is admitted, and the
graph that it comes to is the one it attempts to import. -/
theorem Work.fetchImport_found (room : 0 < maxDepth) (loaded : loader location = .ok source)
    (read : Recipe.parse source = .ok recipe) (named : location ≠ "") {work : Work σ}
    (rooted : work.chain = .start maxDepth) {origin : Import}
    (here : origin.location.value = location) :
    ∃ noted after : Session σ,
      let imported := recipe.build ((Resolver.plain loader).resolveWithin (maxDepth - 1))
        ((ImportChain.start maxDepth).entering location) noted
      noted.supply = work.session.supply ∧ after.supply = imported.session.supply ∧
        work.fetchImport ((Resolver.plain loader).resolveWithin maxDepth) origin =
          (some imported.level,
            { work with level := work.level.addImport location, session := after }) := by
  obtain ⟨noted, after, before, behind, attempted⟩ :=
    Resolver.plain_attempt_found room loaded read work.session
  have admitted : (ImportChain.start maxDepth).mayEnter location = .ok () :=
    ImportChain.mayEnter_eq_ok_iff.2 ⟨rfl, room⟩
  have nonempty : origin.location.value.isEmpty = false := by
    rw [here, ← Bool.not_eq_true, String.isEmpty_iff]
    exact named
  refine ⟨noted, after, before, behind, ?_⟩
  rw [fetchImport, nonempty, fetch_eq, rooted, here, attempted, admitted]
  rfl

end Imported

/-! ### Works under the empty chain -/

/-- What is known of the work on a recipe that is compiled for its own sake, after any of its
statements. -/
structure Work.Rooted (maxDepth : Nat) (old : List String) (start : IdSupply) (work : Work σ) :
    Prop where
  chain : work.chain = .start maxDepth
  sound : work.Sound (fun _ => True) old start
  tidy : work.level.Tidy

namespace Work.Rooted

variable {loader : Loader} {maxDepth : Nat} {old : List String} {start : IdSupply} {work : Work σ}

/-- The level that a recipe starts with. -/
theorem opened (maxDepth : Nat) {session : Session σ} (sound : session.Sound (fun _ => True) old) :
    Rooted maxDepth old session.supply
      ⟨.empty session.freshId.1 "", .empty, .start maxDepth, session.freshId.2⟩ where
  chain := rfl
  sound := ⟨.empty session.supply "", nofun, ⟨sound.silent, sound.store⟩⟩
  tidy := Dag.tidy_empty _ _

theorem placeAll (rooted : work.Rooted maxDepth old start) (loader : Loader)
    (statements : List (Spanned Statement)) :
    (Work.placeAll ((Resolver.plain loader).resolveWithin maxDepth) statements work).Rooted maxDepth
      old start := by
  have resolves : ((Resolver.plain loader).resolveWithin maxDepth : Resolve σ).Sound fun _ => True :=
    (Resolver.plain_sound loader).resolveWithin maxDepth
  have grown := rooted.sound.placeAll_grows resolves statements
  exact ⟨(Resolver.plain_keeps_start loader maxDepth).placeAll statements rooted.chain,
    .placeAll resolves statements rooted.sound, grown.level.tidy rooted.tidy⟩

theorem place (rooted : work.Rooted maxDepth old start) (loader : Loader) (statement : Statement) :
    (Work.place ((Resolver.plain loader).resolveWithin maxDepth) statement work).Rooted maxDepth
      old start :=
  rooted.placeAll loader [⟨statement, default⟩]

end Work.Rooted

/-! ### Recipes in a session of their own -/

namespace Loader

/-- The work on a recipe that is compiled for its own sake, in a session of its own. -/
def alone (loader : Loader) (maxDepth : Nat) (recipe : Recipe) : Work Unit :=
  recipe.build ((Resolver.plain loader).resolveWithin maxDepth) (.start maxDepth) (.start ())

variable (loader : Loader) (maxDepth : Nat) (recipe : Recipe)

theorem alone_rooted : (loader.alone maxDepth recipe).Rooted maxDepth [] .start := by
  have sound : Session.Sound (fun _ => True) [] (Session.start ()) := ⟨nofun, trivial⟩
  exact (Work.Rooted.opened maxDepth sound).placeAll loader recipe.statements

theorem alone_again :
    ∃ R, Work.Matched R .start .start none none (loader.alone maxDepth recipe)
      (loader.alone maxDepth recipe) :=
  recipe.build_again loader maxDepth (Session.start ()) (Session.start ())

/-- More statements are placed behind those that were placed before. -/
theorem alone_append (before after : List (Spanned Statement)) :
    loader.alone maxDepth ⟨before ++ after⟩ =
      Work.placeAll ((Resolver.plain loader).resolveWithin maxDepth) after
        (loader.alone maxDepth ⟨before⟩) :=
  Work.placeAll_append _ before after _

end Loader

end RecipeGraph
