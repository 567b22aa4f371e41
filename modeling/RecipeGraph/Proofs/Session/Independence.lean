/-
# Imports under other chains

A text that is compiled once may be asked for again under another chain of imports. When nothing was
cut off the first time, when no location reached then is on the second chain, and when the second
chain leaves as much room as was needed, compiling again gives the same graph under other
identifiers, and reaches the same.

The first run decides where the two may part. As soon as it reaches beyond what it is allowed to, or
an import of its own is cut off, it has escaped and nothing more is claimed; a run whose final reach
is the bound itself has never escaped.
-/

import RecipeGraph.Proofs.Build.Lockstep
import RecipeGraph.Proofs.Session.Explored

namespace RecipeGraph

variable {σ τ : Type}

/-- A text compiled twice comes to the same as long as its imports do. -/
theorem Resolver.compileSource_alike {resolve : Resolve σ} {resolve' : Resolve τ}
    {joined : Outside σ → Outside τ → Prop} {escaped : Outside σ → Prop}
    (inStep : resolve.InStep resolve' joined escaped) (forGood : Work.Preserves resolve escaped)
    (location source : String) {chain chain' : ImportChain} (session : Session σ)
    (session' : Session τ) (outside : joined ⟨chain, session.journal, session.store⟩
      ⟨chain', session'.journal, session'.store⟩) :
    let fetched := compileSource resolve location source chain session
    let other := compileSource resolve' location source chain' session'
    escaped fetched.outside ∨ joined fetched.outside other.outside ∧
      fetched.Alike session.supply session'.supply other := by
  unfold compileSource
  cases Recipe.parse source with
  | error failure => exact .inr ⟨outside, Nat.le_refl _, Nat.le_refl _, .failed _⟩
  | ok recipe =>
      rcases recipe.build_alike inStep forGood outside with away | ⟨after, R, matched⟩
      · exact .inl away
      · exact .inr ⟨after, matched.pairing.forward, matched.pairing.forward',
          .given matched.pairing matched.level matched.placed matched.placed'⟩

section Plain

variable {chain chain' : ImportChain} {bound : Reach} {room room' : Nat}

/-- Two runs below two chains have reached the same so far. -/
def Parallel (chain chain' : ImportChain) (outside : Outside σ) (other : Outside τ) : Prop :=
  chain.Explored outside.chain ∧ other.chain = chain'.record outside.chain.reach

/-- A run below a chain has reached more than it may. -/
def Exceeds (chain : ImportChain) (bound : Reach) (outside : Outside σ) : Prop :=
  chain.Explored outside.chain ∧ ¬ outside.chain.reach.Within bound

/-- An attempt to import records something on the chain. -/
theorem Resolve.attempt_recorded {resolve : Resolve σ} {reached : ImportChain}
    (explored : chain.Explored reached) (entered : chain.Entered (room + 1))
    (explores : ∀ location inner session, inner.Entered room →
      (resolve location inner session).Explores location inner session) (location : String)
    (session : Session σ) :
    ∃ below, (resolve.attempt location reached session).chain = reached.record below := by
  cases admitted : reached.mayEnter location with
  | error failure =>
      rw [attempt_of_refused admitted]
      exact ⟨.cut, explored.settled.recordCut⟩
  | ok =>
      have entered' := entered.entering explored admitted
      have inner := explores location _ session entered'
      rw [attempt_of_admitted admitted]
      exact ⟨_, inner.explored.leave_eq entered'⟩

/-- A run that has reached more than it may does not get back. -/
theorem Exceeds.forGood {resolve : Resolve σ} (entered : chain.Entered (room + 1))
    (explores : ∀ location inner session, inner.Entered room →
      (resolve location inner session).Explores location inner session) :
    Work.Preserves resolve (Exceeds chain bound) := by
  rintro location reached session ⟨explored, beyond⟩
  have kept := Resolve.explored_attempt entered explores location reached session
    ⟨explored, [], (List.append_nil _).symm, nofun⟩
  obtain ⟨below, recorded⟩ :=
    Resolve.attempt_recorded explored entered explores location session
  refine ⟨kept.explored, fun within => beyond ?_⟩
  have within : (resolve.attempt location reached session).chain.reach.Within bound := within
  rw [recorded, ImportChain.reach_record (explored.nonempty entered)] at within
  exact within.of_adding.1

/-- Two ways to resolve imports come to the same below one location, if the first one reaches there
what fits the second chain. -/
def Resolve.Independent (resolve : Resolve σ) (resolve' : Resolve τ) (room room' : Nat) : Prop :=
  ∀ location chain chain' session session', chain.Entered room → chain'.Entered room' →
    (resolve location chain session).chain.reach.fits chain' = true →
    (resolve location chain session).Alike session.supply session'.supply
        (resolve' location chain' session') ∧
      (resolve' location chain' session').chain =
        chain'.record (resolve location chain session).chain.reach

/-- An import does not lead back to itself, as long as what is reached through it lies within
something that fits a chain. -/
theorem ImportChain.Explored.not_mem_of_within {reached after : ImportChain} {location : String}
    (explored : (reached.entering location).Explored after) (fits : bound.fits chain' = true)
    (within : ((Reach.ofImport location).adding after.reach 1).Within bound) :
    location ∉ after.reach.locations.members := by
  have whole : after.reach.truncated = false := by
    rw [Bool.eq_false_iff]
    intro cut
    have truncated : bound.truncated = true := within.truncated (by simp [Reach.adding, cut])
    rw [(Reach.fits_iff.1 fits).1] at truncated
    cases truncated
  intro held
  have clear := explored.clear whole location held
  rw [ImportChain.contains_entering, decide_eq_true rfl, Bool.true_or] at clear
  cases clear

/-- Two resolvers without memory go along with each other below two chains, if they do so with room
for one import fewer and the reach allowed to the first one fits the chain of the second. -/
theorem Parallel.inStep {resolve : Resolve σ} {resolve' : Resolve τ}
    (entered : chain.Entered (room + 1)) (left : room' + chain'.depth = chain'.maxDepth)
    (fits : bound.fits chain' = true)
    (explores : ∀ location inner session, inner.Entered room →
      (resolve location inner session).Explores location inner session)
    (step : resolve.Independent resolve' room room') :
    resolve.InStep resolve' (Parallel chain chain') (Exceeds chain bound) := by
  rintro location reached session reached' session' ⟨explored, same⟩
  change reached' = chain'.record reached.reach at same
  subst same
  change chain.Explored reached at explored
  have kept := Resolve.explored_attempt entered explores location reached session
    ⟨explored, [], (List.append_nil _).symm, nofun⟩
  by_cases within : (resolve.attempt location reached session).chain.reach.Within bound
  · refine .inr ?_
    cases admitted : reached.mayEnter location with
    | error failure =>
        -- A refusal is a cut, and nothing that fits a chain is cut off.
        rw [Resolve.attempt_of_refused admitted, explored.settled.recordCut,
          ImportChain.reach_record (explored.nonempty entered)] at within
        have cut := within.truncated (Bool.or_true _)
        rw [(Reach.fits_iff.1 fits).1] at cut
        cases cut
    | ok =>
        have inside := entered.entering explored admitted
        have inner := explores location _ session inside
        have recorded : (resolve.attempt location reached session).chain = reached.record
            ((Reach.ofImport location).adding
              (resolve location (reached.entering location) session).chain.reach 1) := by
          rw [Resolve.attempt_of_admitted admitted]
          exact inner.explored.leave_eq inside
        have reach := ImportChain.reach_record (explored.nonempty entered) ((Reach.ofImport
          location).adding (resolve location (reached.entering location) session).chain.reach 1)
        rw [recorded, reach] at within
        have below := within.of_adding.2
        have fits' : bound.fits (chain'.record reached.reach) = true := by
          simpa [Reach.fits_iff] using fits
        have apart := inner.explored.not_mem_of_within fits below
        obtain ⟨admitted', fitting⟩ := Reach.fits_entering fits' below apart
        have inside' : ((chain'.record reached.reach).entering location).Entered room' := by
          refine ImportChain.entered_entering ?_ admitted'
          rw [ImportChain.depth_record, ImportChain.maxDepth_record]
          exact left
        obtain ⟨alike, reached'⟩ := step location _ _ session session' inside inside' fitting
        rw [Resolve.attempt_of_admitted admitted']
        refine ⟨?_, ⟨kept.explored, ?_⟩, ?_⟩
        · rw [admitted']
        · dsimp only [Fetched.outside]
          rw [reached', ImportChain.leave_record_entering, recorded, reach,
            ImportChain.record_record]
        · rw [Resolve.attempt_of_admitted admitted]
          exact ⟨alike.forward, alike.forward', alike.results⟩
  · exact .inl ⟨kept.explored, within⟩

/-- What a loader has for a location comes to the same under two chains. -/
theorem Resolver.plain_answer_independent {loader : Loader} {resolve : Resolve σ}
    {resolve' : Resolve τ} (entered : chain.Entered (room + 1)) (entered' : chain'.Entered (room' + 1))
    (explores : ∀ location inner session, inner.Entered room →
      (resolve location inner session).Explores location inner session)
    (step : resolve.Independent resolve' room room') (location : String) (session : Session σ)
    (session' : Session τ) (fits : ((plain loader).answer (compileSource resolve) location chain
      session).chain.reach.fits chain' = true) :
    ((plain loader).answer (compileSource resolve) location chain session).Alike session.supply
        session'.supply
        ((plain loader).answer (compileSource resolve') location chain' session') ∧
      ((plain loader).answer (compileSource resolve') location chain' session').chain =
        chain'.record ((plain loader).answer (compileSource resolve) location chain
          session).chain.reach := by
  have unchanged : chain' = chain'.record chain.reach := by
    rw [entered.fresh, entered'.settled]
  have left : room' + chain'.depth = chain'.maxDepth := by
    have := entered'.bound
    omega
  rw [plain_answer] at fits
  rw [plain_answer, plain_answer]
  cases found : loader location with
  | error failure => exact ⟨⟨Nat.le_refl _, Nat.le_refl _, .failed failure⟩, unchanged⟩
  | ok source =>
      rw [found] at fits
      rcases compileSource_alike (Parallel.inStep entered left fits explores step)
        (Exceeds.forGood entered explores) location source (session.note (.loaded location true))
        (session'.note (.loaded location true)) ⟨.refl entered, unchanged⟩
        with ⟨_, beyond⟩ | ⟨⟨_, same⟩, alike⟩
      · exact absurd (Reach.Within.refl _) beyond
      · exact ⟨alike, same⟩

/-- A resolver without memory gives the same under two chains, if what it reached under the first
one fits the second. -/
theorem Resolver.plain_independent (loader : Loader) (room room' : Nat) :
    Resolve.Independent ((plain loader : Resolver σ).resolveWithin room)
      ((plain loader : Resolver τ).resolveWithin room') room room' := by
  induction room generalizing room' with
  | zero => exact fun _ _ _ _ _ entered => absurd entered.positive (Nat.lt_irrefl 0)
  | succ room step =>
      cases room' with
      | zero => exact fun _ _ _ _ _ _ entered' => absurd entered'.positive (Nat.lt_irrefl 0)
      | succ room' =>
          intro location chain chain' session session' entered entered' fits
          obtain ⟨alike, same⟩ := plain_answer_independent entered entered'
            (plain_explores loader room) (step room') location
            (session.note (.entered location chain.locations))
            (session'.note (.entered location chain'.locations)) fits
          exact ⟨⟨alike.forward, alike.forward', alike.results⟩, same⟩

end Plain

end RecipeGraph
