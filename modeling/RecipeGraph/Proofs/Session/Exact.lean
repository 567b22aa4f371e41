/-
# The reuse of an import is decided exactly

What was reached below an import tells under which other chains the import comes to the same. The
test is exact in both directions: it holds just under the chains on which no import below is cut
off, and wherever it holds, importing anew gives the same graph and reaches the same.

A chain that was only entered and never recorded on differs from the chains that arise while recipes
are compiled: its outer imports have not been told of those further in. Nothing that a compilation
does depends on that, as it looks only at the locations on the chain and at how many there may be.
So every chain may be replaced by one on which everything has been recorded.
-/

import RecipeGraph.Proofs.Session.Cuts
import RecipeGraph.Proofs.Session.Reuse
import RecipeGraph.Proofs.Session.Transparent

namespace RecipeGraph

variable {σ τ : Type}

namespace ImportChain

/-- Two chains with the same locations and the same bound, on which the same has been recorded for
the innermost imports. -/
structure SameWay (inner : Nat) (chain chain' : ImportChain) : Prop where
  way : chain.way = chain'.way
  maxDepth : chain.maxDepth = chain'.maxDepth
  recorded : chain.steps.take inner = chain'.steps.take inner

namespace SameWay

variable {inner : Nat} {chain chain' : ImportChain}

theorem mayEnter_eq (same : SameWay inner chain chain') (location : String) :
    chain.mayEnter location = chain'.mayEnter location := by
  have locations : chain.locations = chain'.locations := congrArg List.reverse same.way
  have depth : chain.depth = chain'.depth := by
    rw [← length_way, ← length_way, same.way]
  have contains : chain.contains location = chain'.contains location := by
    rw [Bool.eq_iff_iff, ← mem_way_iff, ← mem_way_iff, same.way]
  rw [mayEnter, mayEnter, contains, locations, depth, same.maxDepth]

theorem reach_eq (same : SameWay (inner + 1) chain chain') : chain.reach = chain'.reach := by
  have first := congrArg List.head? same.recorded
  rw [List.head?_take, List.head?_take] at first
  obtain ⟨steps, maxDepth⟩ := chain
  obtain ⟨steps', maxDepth'⟩ := chain'
  cases steps with
  | nil =>
      cases steps' with
      | nil => rfl
      | cons step' outer' => simp at first
  | cons step outer =>
      cases steps' with
      | nil => simp at first
      | cons step' outer' =>
          have both : step = step' := by simpa using first
          exact congrArg ImportStep.reach both

theorem recordCut (same : SameWay inner chain chain') :
    SameWay inner chain.recordCut chain'.recordCut where
  way := by
    have unchanged : ∀ chain : ImportChain, chain.recordCut.way = chain.way := fun chain => by
      simp [ImportChain.way, ImportChain.recordCut]
    rw [unchanged, unchanged, same.way]
  maxDepth := same.maxDepth
  recorded := by
    simp only [ImportChain.recordCut]
    rw [← List.map_take, ← List.map_take, same.recorded]

theorem take_recordSteps (below : Reach) (inner distance : Nat) (steps : List ImportStep) :
    (recordSteps below distance steps).take inner = recordSteps below distance (steps.take inner) := by
  induction steps generalizing inner distance with
  | nil => simp [recordSteps]
  | cons step outer rest =>
      cases inner with
      | zero => rfl
      | succ inner => simp [recordSteps, rest]

theorem record (same : SameWay inner chain chain') (below : Reach) :
    SameWay inner (chain.record below) (chain'.record below) where
  way := by rw [way_record, way_record, same.way]
  maxDepth := same.maxDepth
  recorded := by
    simp only [ImportChain.record]
    rw [take_recordSteps, take_recordSteps, same.recorded]

theorem entering (same : SameWay inner chain chain') (location : String) :
    SameWay (inner + 1) (chain.entering location) (chain'.entering location) where
  way := by rw [way_entering, way_entering, same.way]
  maxDepth := same.maxDepth
  recorded := congrArg (ImportStep.mk location .nothing :: ·) (same.record (.ofImport location)).recorded

theorem leave (same : SameWay (inner + 1) chain chain') : SameWay inner chain.leave chain'.leave where
  way := by
    have left : ∀ chain : ImportChain, chain.leave.way = chain.way.tail := fun chain =>
      List.map_tail
    rw [left, left, same.way]
  maxDepth := same.maxDepth
  recorded := by
    have left := congrArg (List.drop 1) same.recorded
    rwa [List.drop_take, List.drop_take, List.drop_one, List.drop_one] at left

/-- On a chain that has just been entered, recording nothing changes nothing but what the outer
imports know of each other. -/
theorem settling {chain : ImportChain} {location : String} :
    SameWay 1 (chain.push location) ((chain.push location).record .nothing) where
  way := (way_record _ _).symm
  maxDepth := rfl
  recorded := rfl

end SameWay

theorem enter_eq_ok {chain longer : ImportChain} {location : String}
    (entered : chain.enter location = .ok longer) :
    chain.mayEnter location = .ok () ∧ longer = chain.push location := by
  rw [enter] at entered
  cases admitted : chain.mayEnter location with
  | error failure =>
      rw [admitted] at entered
      cases entered
  | ok =>
      rw [admitted] at entered
      exact ⟨rfl, (Except.ok.inj entered).symm⟩

/-- Recording nothing settles a chain that has just been entered. -/
theorem entered_settling {chain : ImportChain} {location : String}
    (admitted : chain.mayEnter location = .ok ()) :
    ((chain.push location).record .nothing).Entered (chain.maxDepth - chain.depth) where
  settled := settled_record _ _
  nonempty := record_steps_ne_nil (List.cons_ne_nil _ _) _
  fresh := rfl
  bound := by
    have free := (mayEnter_eq_ok_iff.1 admitted).2
    have depth : (chain.push location).depth = chain.depth + 1 := rfl
    rw [depth_record, maxDepth_record, depth]
    show chain.maxDepth - chain.depth + (chain.depth + 1) = chain.maxDepth + 1
    omega
  positive := Nat.sub_pos_of_lt (mayEnter_eq_ok_iff.1 admitted).2

end ImportChain

/-- Two ways to resolve imports come to the same wherever two chains have the same locations, and
record the same for the innermost imports. -/
def Resolve.Alongside (resolve : Resolve σ) (resolve' : Resolve τ) : Prop :=
  ∀ inner location chain chain' session session', chain.SameWay inner chain' →
    (resolve location chain session).Alike session.supply session'.supply
        (resolve' location chain' session') ∧
      (resolve location chain session).chain.SameWay inner (resolve' location chain' session').chain

theorem Resolve.Alongside.inStep {resolve : Resolve σ} {resolve' : Resolve τ}
    (alongside : resolve.Alongside resolve') (inner : Nat) :
    resolve.InStep resolve' (fun outside other => outside.chain.SameWay inner other.chain)
      fun _ => False := by
  intro location chain session chain' session' same
  change chain.SameWay inner chain' at same
  refine .inr ⟨by rw [same.mayEnter_eq], ?_⟩
  cases admitted : chain.mayEnter location with
  | error failure =>
      rw [attempt_of_refused admitted, attempt_of_refused (same.mayEnter_eq location ▸ admitted)]
      exact ⟨same.recordCut, Nat.le_refl _, Nat.le_refl _, .failed failure⟩
  | ok =>
      obtain ⟨alike, reached⟩ := alongside (inner + 1) location _ _ session session'
        (same.entering location)
      rw [attempt_of_admitted admitted, attempt_of_admitted (same.mayEnter_eq location ▸ admitted)]
      exact ⟨reached.leave, alike.forward, alike.forward', alike.results⟩

/-- A resolver without memory looks at nothing on a chain but its locations and its bound. -/
theorem Resolver.plain_alongside (loader : Loader) (room : Nat) :
    Resolve.Alongside ((plain loader : Resolver σ).resolveWithin room)
      ((plain loader : Resolver τ).resolveWithin room) := by
  induction room with
  | zero =>
      intro inner location chain chain' session session' same
      refine ⟨⟨Nat.le_refl _, Nat.le_refl _, ?_⟩, same⟩
      simp only [resolveWithin, same.maxDepth]
      exact .failed _
  | succ room step =>
      intro inner location chain chain' session session' same
      cases found : loader location with
      | error failure =>
          rw [plain_resolveWithin_of_missing found, plain_resolveWithin_of_missing found]
          exact ⟨⟨Nat.le_refl _, Nat.le_refl _, .failed failure⟩, same⟩
      | ok source =>
          rw [plain_resolveWithin_of_found room chain found,
            plain_resolveWithin_of_found room chain' found]
          rcases compileSource_alike (step.inStep inner) (fun _ _ _ => id) location source
            ((session.note (.entered location chain.locations)).note (.loaded location true))
            ((session'.note (.entered location chain'.locations)).note (.loaded location true)) same
            with away | ⟨reached, alike⟩
          · exact away.elim
          · exact ⟨⟨alike.forward, alike.forward', alike.results⟩, reached⟩

/-- Below a chain that has just been entered, what has been reached is all that was recorded. -/
theorem ImportChain.Explored.nothing_adding {chain reached : ImportChain} {room : Nat}
    (explored : chain.Explored reached) (entered : chain.Entered room) :
    Reach.nothing.adding reached.reach 0 = reached.reach := by
  have recorded := congrArg ImportChain.reach (explored.eq_record entered)
  rwa [reach_record entered.nonempty, entered.fresh] at recorded

namespace Resolver

variable {loader : Loader} {location : String} {room room' : Nat} {chain chain' : ImportChain}
  {outer outer' : List String}

/-- What fits a chain is reached below it again. -/
theorem plain_reach_of_fits (entered : chain.Entered room) (entered' : chain'.Entered room')
    (session : Session σ) (session' : Session τ)
    (fits : ((plain loader).resolveWithin room location chain session).chain.reach.fits chain' =
      true) :
    ((plain loader).resolveWithin room' location chain' session').chain.reach =
      ((plain loader).resolveWithin room location chain session).chain.reach := by
  have explored := (plain_explores loader room location chain session entered).explored
  have again := (plain_independent loader room room' location chain chain' session session' entered
    entered' fits).2
  rw [again, ImportChain.reach_record entered'.nonempty, entered'.fresh,
    explored.nothing_adding entered]

/-- Where nothing is cut off, the same is reached when the location is imported for its own sake,
with room enough. -/
theorem plain_reach_alone (entered : chain.Entered room) (way : chain.way = location :: outer)
    (session : Session σ)
    (whole : ((plain loader).resolveWithin room location chain session).chain.reach.truncated = false)
    {maxDepth : Nat} (enough :
      ((plain loader).resolveWithin room location chain session).chain.reach.height < maxDepth)
    (session' : Session τ) :
    ((plain loader).resolveWithin maxDepth location ((ImportChain.start maxDepth).entering location)
      session').chain.reach =
      ((plain loader).resolveWithin room location chain session).chain.reach := by
  have explored := (plain_explores loader room location chain session entered).explored
  have admitted : (ImportChain.start maxDepth).mayEnter location = .ok () :=
    ImportChain.mayEnter_eq_ok_iff.2 ⟨rfl, Nat.lt_of_le_of_lt (Nat.zero_le _) enough⟩
  have alone : ((ImportChain.start maxDepth).entering location).Entered maxDepth :=
    ImportChain.entered_entering rfl admitted
  refine plain_reach_of_fits entered alone session session' (Reach.fits_iff.2 ⟨whole, ?_, ?_⟩)
  · rw [ImportChain.depth_entering, ImportChain.maxDepth_entering]
    show 0 + 1 + _ ≤ maxDepth
    omega
  · intro other held
    have apart : location ≠ other := by
      rintro rfl
      have absent := explored.clear whole location held
      rw [ImportChain.mem_way_iff.1 (way ▸ List.mem_cons_self)] at absent
      cases absent
    rw [ImportChain.contains_entering, decide_eq_false apart]
    rfl

/-- Two compilations of one location in which nothing is cut off reach the same, whatever the chains
are. -/
theorem plain_reach_eq (entered : chain.Entered room) (entered' : chain'.Entered room')
    (way : chain.way = location :: outer) (way' : chain'.way = location :: outer')
    (session : Session σ) (session' : Session τ)
    (whole : ((plain loader).resolveWithin room location chain session).chain.reach.truncated = false)
    (whole' : ((plain loader).resolveWithin room' location chain' session').chain.reach.truncated =
      false) :
    ((plain loader).resolveWithin room' location chain' session').chain.reach =
      ((plain loader).resolveWithin room location chain session).chain.reach := by
  obtain ⟨maxDepth, enough, enough'⟩ : ∃ maxDepth,
      ((plain loader).resolveWithin room location chain session).chain.reach.height < maxDepth ∧
        ((plain loader).resolveWithin room' location chain' session').chain.reach.height < maxDepth :=
    ⟨_, Nat.lt_succ_of_le (Nat.le_max_left _ _), Nat.lt_succ_of_le (Nat.le_max_right _ _)⟩
  have alone := plain_reach_alone entered way session whole enough session
  have alone' := plain_reach_alone entered' way' session' whole' enough' session
  exact alone'.symm.trans alone

end Resolver

theorem Reach.fits_record (reach : Reach) (chain : ImportChain) (below : Reach) :
    reach.fits (chain.record below) = reach.fits chain := by
  simp [Reach.fits]

/-- On settled chains, what has been reached fits exactly where nothing is cut off. -/
theorem Resolver.plain_fits_iff {loader : Loader} {location : String} {room room' : Nat}
    {chain chain' : ImportChain} {outer outer' : List String} (entered : chain.Entered room)
    (entered' : chain'.Entered room') (way : chain.way = location :: outer)
    (way' : chain'.way = location :: outer') (session : Session σ) (session' : Session τ)
    (whole : ((plain loader).resolveWithin room location chain session).chain.reach.truncated = false) :
    ((plain loader).resolveWithin room location chain session).chain.reach.fits chain' = true ↔
      ¬ loader.Cuts chain'.maxDepth chain'.way := by
  have surveys := plain_surveys loader room' location outer' chain' session' entered' way'
  have explored := (plain_explores loader room' location chain' session' entered').explored
  rw [← surveys.truncated, Bool.not_eq_true]
  constructor
  · intro fits
    rw [plain_reach_of_fits entered entered' session session' fits]
    exact whole
  · intro whole'
    have same := plain_reach_eq entered entered' way way' session session' whole whole'
    rw [← same]
    exact Reach.fits_iff.2 ⟨whole', surveys.height, explored.clear whole'⟩

/-- Under a chain that has just been entered, a location comes to the same as when the chain has
been settled. -/
theorem Resolver.plain_settling (loader : Loader) (outer : ImportChain) (location : String)
    (session : Session σ) :
    let fetched := (plain loader).resolveUnder outer location (outer.push location) session
    let settled := (plain loader).resolveUnder outer location
      ((outer.push location).record .nothing) session
    ResultsAlike session.supply fetched.session.supply session.supply settled.session.supply
        fetched.result settled.result ∧
      fetched.chain.reach = settled.chain.reach := by
  obtain ⟨alike, same⟩ := plain_alongside loader (outer.maxDepth - outer.depth) 1 location _ _
    session session ImportChain.SameWay.settling
  exact ⟨alike.results, same.reach_eq⟩

/-- The reuse of an import is decided exactly. Let a location be compiled under some chain that has
just been entered, and let nothing be cut off there. Then what was reached fits another chain that
has just been entered, whatever its bound, if and only if no import is cut off below that one; and
where it fits, compiling gives the same graph, up to the identifiers, and reaches the same. -/
theorem Resolver.plain_reuse_exact (loader : Loader) {location : String}
    {outer outer' chain chain' : ImportChain} (entered : outer.enter location = .ok chain)
    (entered' : outer'.enter location = .ok chain') (session : Session σ) (session' : Session τ)
    {graph : Dag} :
    let fetched := (plain loader).resolveUnder outer location chain session
    let fetched' := (plain loader).resolveUnder outer' location chain' session'
    fetched.result = .ok graph → fetched.chain.reach.truncated = false →
      (fetched.chain.reach.fits chain' = true ↔ ¬ loader.Cuts chain'.maxDepth chain'.way) ∧
        (fetched'.chain.reach.truncated = true ↔ loader.Cuts chain'.maxDepth chain'.way) ∧
        (fetched.chain.reach.fits chain' = true →
          (∃ permutation : Equiv.Perm Id, fetched'.result = .ok (graph.rename permutation)) ∧
            fetched'.chain.reach = fetched.chain.reach) := by
  intro fetched fetched' compiled whole
  obtain ⟨admitted, rfl⟩ := ImportChain.enter_eq_ok entered
  obtain ⟨admitted', rfl⟩ := ImportChain.enter_eq_ok entered'
  have settled := ImportChain.entered_settling admitted
  have settled' := ImportChain.entered_settling admitted'
  have way : ((outer.push location).record .nothing).way = location :: outer.way :=
    ImportChain.way_record _ _
  have way' : ((outer'.push location).record .nothing).way = location :: outer'.way :=
    ImportChain.way_record _ _
  obtain ⟨alike, reach⟩ := plain_settling loader outer location session
  obtain ⟨alike', reach'⟩ := plain_settling loader outer' location session'
  change fetched.chain.reach = _ at reach
  change fetched'.chain.reach = _ at reach'
  rw [reach] at whole
  have exact' := plain_fits_iff settled settled' way way' session session' whole
  have surveys := (plain_surveys loader _ location outer'.way _ session' settled' way').truncated
  rw [Reach.fits_record, ImportChain.maxDepth_record, ImportChain.way_record] at exact'
  rw [ImportChain.maxDepth_record, ImportChain.way_record] at surveys
  rw [reach, reach']
  refine ⟨exact', surveys, fun fits => ?_⟩
  rw [← Reach.fits_record _ _ .nothing] at fits
  refine ⟨?_, plain_reach_of_fits settled settled' session session' fits⟩
  have between := (plain_independent loader _ _ location _ _ session session' settled settled'
    fits).1.results
  obtain ⟨permutation, same⟩ := ((alike.comp between).comp alike'.flip).exists_perm
  refine ⟨permutation, same.trans ?_⟩
  rw [show (resolveUnder (plain loader) outer location (outer.push location) session).result = _
    from compiled]
  rfl

/-- A recipe at `a` that imports another one at `b`. -/
def Loader.sample : Loader :=
  .ofTable (.ofList [("a", "n @ 'b'"), ("b", "f()")])

/-- What `a` reaches when it is imported for its own sake fits a longer chain with room for one more
import, on which `b` does not stand. -/
theorem Resolver.plain_reuse_exact_of_sample :
    let fetched := (plain Loader.sample).resolveUnder (.start 2) "a" ((ImportChain.start 2).push "a")
      (Session.start ())
    let fetched' := (plain Loader.sample).resolveUnder ((ImportChain.start 3).push "c") "a"
      (((ImportChain.start 3).push "c").push "a") (Session.start ())
    fetched.chain.reach = ⟨⟨["b"]⟩, 1, false⟩ ∧ ¬ Loader.sample.Cuts 3 ["a", "c"] ∧
      ∃ graph permutation, fetched.result = .ok graph ∧
        fetched'.result = .ok (graph.rename (permutation : Equiv.Perm Id)) := by
  intro fetched fetched'
  have reach : fetched.chain.reach = ⟨⟨["b"]⟩, 1, false⟩ := by decide +kernel
  have succeeds : fetched.result.isOk = true := by decide +kernel
  cases compiled : fetched.result with
  | error failure =>
      rw [compiled] at succeeds
      cases succeeds
  | ok graph =>
      have entered : (ImportChain.start 2).enter "a" = .ok ((ImportChain.start 2).push "a") := rfl
      have entered' : ((ImportChain.start 3).push "c").enter "a" =
          .ok (((ImportChain.start 3).push "c").push "a") := rfl
      obtain ⟨exact', _, again⟩ := plain_reuse_exact Loader.sample entered entered' (Session.start ())
        (Session.start ()) compiled (congrArg Reach.truncated reach)
      have fits : fetched.chain.reach.fits (((ImportChain.start 3).push "c").push "a") = true := by
        rw [reach]
        decide
      obtain ⟨⟨permutation, same⟩, _⟩ := again fits
      exact ⟨reach, exact'.1 fits, graph, permutation, rfl, same⟩

end RecipeGraph
