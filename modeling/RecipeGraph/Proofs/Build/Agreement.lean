/-
# Two ways to import that agree where it matters

A builder asks for imports and looks at nothing else of the way in which they are resolved. So two
ways to resolve build the same, and leave the same behind, if every attempt to import comes to the
same wherever the builder can get to. Where it can get to is described by any property of what lies
outside the level that attempts preserve.
-/

import RecipeGraph.Proofs.Build.Attempts

namespace RecipeGraph

variable {σ : Type}

/-- Two ways to resolve imports agree wherever a property holds, and never leave it. -/
structure Resolve.AgreesWhile (keeps : Outside σ → Prop) (resolve resolve' : Resolve σ) :
    Prop where
  preserves : Work.Preserves resolve keeps
  agrees : ∀ location chain session, keeps ⟨chain, session.journal, session.store⟩ →
    resolve.attempt location chain session = resolve'.attempt location chain session

namespace Resolve.AgreesWhile

variable {keeps : Outside σ → Prop} {resolve resolve' : Resolve σ} {work : Work σ}

theorem fetchImport (same : AgreesWhile keeps resolve resolve') (kept : keeps work.outside)
    (source : Import) : work.fetchImport resolve source = work.fetchImport resolve' source := by
  have attempts := same.agrees source.location.value work.chain work.session kept
  rw [Work.fetchImport, Work.fetchImport, Work.fetch_eq, Work.fetch_eq, attempts]

theorem placeImport (same : AgreesWhile keeps resolve resolve') (kept : keeps work.outside)
    (source : Import) : work.placeImport resolve source = work.placeImport resolve' source := by
  rw [Work.placeImport, Work.placeImport, same.fetchImport kept]

theorem placeNestedImport (same : AgreesWhile keeps resolve resolve') (kept : keeps work.outside)
    (source : Import) :
    work.placeNestedImport resolve source = work.placeNestedImport resolve' source := by
  rw [Work.placeNestedImport, Work.placeNestedImport, same.fetchImport kept]

/-- What a level is opened with lies outside as before. -/
theorem keeps_openLevel (kept : keeps work.outside) (arguments : List Argument)
    (name : Option (Spanned String)) (style : Option StyleBlock) :
    keeps ((Work.gather arguments work).2.openLevel name style).outside := by
  rwa [Work.outside_openLevel, Work.outside_gather]

mutual

theorem place (same : AgreesWhile keeps resolve resolve') : ∀ (statement : Statement)
    (work : Work σ), keeps work.outside →
    Work.place resolve statement work = Work.place resolve' statement work
  | .call _, _, _ => rfl
  | .assignment _ (.call _), _, _ => rfl
  | .assignment targets (.level ⟨⟨name, statements, arguments, style⟩, _⟩), work, kept => by
      have inside := placeAll same statements _ (keeps_openLevel kept arguments name style)
      unfold Work.place
      generalize Work.gather arguments work = gathered at inside ⊢
      simp only [inside]
  | .assignment _ (.fetched source), _, kept => by
      rw [Work.place, Work.place, same.placeNestedImport kept source.value]
  | .alias _ _, _, _ => rfl
  | .namedStyle _ _, _, _ => rfl
  | .styleBinding _ _, _, _ => rfl
  | .level ⟨name, statements, arguments, style⟩, work, kept => by
      have inside := placeAll same statements _ (keeps_openLevel kept arguments name style)
      unfold Work.place
      generalize Work.gather arguments work = gathered at inside ⊢
      simp only [inside]
  | .fetched source, _, kept => same.placeImport kept source
  | .reference _, _, _ => rfl
termination_by structural statement => statement

/-- Statements are built in the same way by both. -/
theorem placeAll (same : AgreesWhile keeps resolve resolve') :
    ∀ (statements : List (Spanned Statement)) (work : Work σ), keeps work.outside →
      Work.placeAll resolve statements work = Work.placeAll resolve' statements work
  | [], _, _ => rfl
  | ⟨statement, _⟩ :: rest, work, kept => by
      have after : keeps (Work.place resolve statement work).outside :=
        same.preserves.attempts (Work.attempts_place resolve statement work) kept
      rw [Work.placeAll, Work.placeAll, ← place same statement work kept]
      exact placeAll same rest _ after
termination_by structural statements => statements

end

/-- A recipe is built in the same way by both. -/
theorem build (same : AgreesWhile keeps resolve resolve') (recipe : Recipe) (chain : ImportChain)
    (session : Session σ) (kept : keeps ⟨chain, session.journal, session.store⟩) :
    recipe.build resolve chain session = recipe.build resolve' chain session :=
  same.placeAll recipe.statements ⟨.empty session.freshId.1 "", .empty, chain, session.freshId.2⟩ kept

end Resolve.AgreesWhile

end RecipeGraph
