/-
# Building imports what is written

Whatever statements do to the level at hand, outside of it they do no more and no less than to
attempt the imports that can be read off them, one after the other and in the order in which they
are written. In between, the session may have gone on, but the chain, the journal and what the
resolver keeps are left as the attempt before has left them. Hence whatever attempts preserve there,
building any statements preserves.
-/

import RecipeGraph.Proofs.Build.Frame
import RecipeGraph.Recipe.Imports

namespace RecipeGraph

variable {σ : Type}

/-- Several locations are attempted in a row. -/
inductive Resolve.Attempts (resolve : Resolve σ) : List String → Outside σ → Outside σ → Prop
  | nothing (outside : Outside σ) : Attempts resolve [] outside outside
  | next {location : String} {rest : List String} {chain : ImportChain} {session : Session σ}
      {last : Outside σ}
      (later : Attempts resolve rest (resolve.attempt location chain session).outside last) :
      Attempts resolve (location :: rest) ⟨chain, session.journal, session.store⟩ last

namespace Resolve.Attempts

variable {resolve : Resolve σ} {first second : List String} {before middle after : Outside σ}

theorem append (one : Attempts resolve first before middle)
    (two : Attempts resolve second middle after) :
    Attempts resolve (first ++ second) before after := by
  induction one with
  | nothing outside => exact two
  | next later step => exact .next (step two)

end Resolve.Attempts

namespace Work

variable (resolve : Resolve σ)

/-- A step that does not import attempts nothing. -/
theorem attempts_aside {work work' : Work σ} (same : work'.outside = work.outside) :
    Resolve.Attempts resolve [] work.outside work'.outside := by
  rw [same]
  exact .nothing work.outside

theorem attempts_fetchImport (source : Import) (work : Work σ) :
    Resolve.Attempts resolve source.locations work.outside
      (work.fetchImport resolve source).2.outside := by
  unfold Work.fetchImport Import.locations
  split
  · exact attempts_aside resolve (outside_report _ work)
  · have fetched : (work.fetch resolve source.location.value).2.outside =
        (resolve.attempt source.location.value work.chain work.session).outside := by
      rw [fetch_eq]
      rfl
    split
    · next same =>
        rw [same] at fetched
        exact .next (fetched ▸ .nothing _)
    · next same =>
        rw [same] at fetched
        exact .next (fetched ▸ attempts_aside resolve (outside_report _ _))

theorem attempts_placeNestedImport (source : Import) (work : Work σ) :
    Resolve.Attempts resolve source.locations work.outside
      (work.placeNestedImport resolve source).2.outside := by
  have fetched := attempts_fetchImport resolve source work
  unfold Work.placeNestedImport
  split
  · next same =>
      rw [same] at fetched
      exact fetched
  · next same =>
      rw [same] at fetched
      exact fetched

theorem attempts_placeImport (source : Import) (work : Work σ) :
    Resolve.Attempts resolve source.locations work.outside
      (work.placeImport resolve source).outside := by
  have fetched := attempts_fetchImport resolve source work
  unfold Work.placeImport
  split
  · next same =>
      rw [same] at fetched
      exact fetched
  · next same =>
      rw [same] at fetched
      split
      · exact fetched
      · exact fetched

mutual

theorem attempts_place : ∀ (statement : Statement) (work : Work σ),
    Resolve.Attempts resolve statement.locations work.outside
      (Work.place resolve statement work).outside
  | .call made, work => attempts_aside resolve (outside_placeCall made work)
  | .assignment targets (.call made), work =>
    attempts_aside resolve ((outside_bindTargets targets _ _).trans (outside_placeCall made.value work))
  | .assignment targets (.level ⟨⟨name, statements, arguments, style⟩, _⟩), work => by
      have inside := attempts_placeAll statements ((gather arguments work).2.openLevel name style)
      rw [outside_openLevel, outside_gather] at inside
      rw [Work.place, outside_bindTargets, outside_closeLevel]
      exact inside
  | .assignment targets (.fetched source), work => by
      have placed := attempts_placeNestedImport resolve source.value work
      rw [Work.place]
      split
      · next same =>
          rw [same] at placed
          exact placed
      · next same =>
          rw [same] at placed
          exact (outside_bindTargets targets _ _).symm ▸ placed
  | .alias target path, work => attempts_aside resolve (outside_placeAlias target path work)
  | .namedStyle name style, work => attempts_aside resolve (outside_placeStyle name style work)
  | .styleBinding _ _, _ => attempts_aside resolve rfl
  | .level ⟨name, statements, arguments, style⟩, work => by
      have inside := attempts_placeAll statements ((gather arguments work).2.openLevel name style)
      rw [outside_openLevel, outside_gather] at inside
      rw [Work.place, outside_closeLevel]
      exact inside
  | .fetched source, work => attempts_placeImport resolve source work
  | .reference path, work => attempts_aside resolve (outside_report (.noEffect path) work)
termination_by structural statement => statement

/-- Statements attempt what they import, in the order in which they import it. -/
theorem attempts_placeAll : ∀ (statements : List (Spanned Statement)) (work : Work σ),
    Resolve.Attempts resolve (Statement.allLocations statements) work.outside
      (Work.placeAll resolve statements work).outside
  | [], _ => .nothing _
  | ⟨statement, _⟩ :: rest, work =>
    (attempts_place statement work).append (attempts_placeAll rest _)
termination_by structural statements => statements

end

end Work

/-- Building a recipe attempts the imports in it. -/
theorem Recipe.attempts_build (recipe : Recipe) (resolve : Resolve σ) (chain : ImportChain)
    (session : Session σ) :
    resolve.Attempts recipe.locations ⟨chain, session.journal, session.store⟩
      (recipe.build resolve chain session).outside :=
  Work.attempts_placeAll resolve recipe.statements
    ⟨.empty session.freshId.1 "", .empty, chain, session.freshId.2⟩

/-! ### What imports preserve, building preserves -/

namespace Work

variable {resolve : Resolve σ} {keeps : Outside σ → Prop}

/-- Every attempt to import preserves a property of what lies outside. -/
def Preserves (resolve : Resolve σ) (keeps : Outside σ → Prop) : Prop :=
  ∀ location chain session, keeps ⟨chain, session.journal, session.store⟩ →
    keeps (resolve.attempt location chain session).outside

theorem Preserves.attempts (preserves : Preserves resolve keeps) {locations : List String}
    {before after : Outside σ} (attempts : resolve.Attempts locations before after)
    (kept : keeps before) : keeps after := by
  induction attempts with
  | nothing outside => exact kept
  | @next location rest chain session last later step =>
      exact step (preserves location chain session kept)

/-- Any number of statements preserve outside the level what imports preserve there. -/
theorem Preserves.placeAll (preserves : Preserves resolve keeps)
    (statements : List (Spanned Statement)) {work : Work σ} (kept : keeps work.outside) :
    keeps (Work.placeAll resolve statements work).outside :=
  preserves.attempts (attempts_placeAll resolve statements work) kept

end Work

end RecipeGraph
