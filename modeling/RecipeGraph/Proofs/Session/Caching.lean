/-
# Caching never changes a result

A session that imports through a cache is compared with one that compiles every import anew. Step by
step both have the same chain, their graphs correspond, and the journal of the one is that of the
other with the inside of some imports left out; meanwhile every entry of the cache stays faithful.
The comparison goes by induction on the room for imports. At each import either a faithful entry is
at hand, and the run without a cache comes to the same by what faithful means, or both compile the
same text, and what came out becomes a faithful entry.
-/

import RecipeGraph.Proofs.Graph.Rename
import RecipeGraph.Proofs.Session.Reuse

namespace RecipeGraph

variable {σ : Type}

/-! ### Journals with the inside of some imports left out -/

/-- The second journal is the first one without what was noted inside of some imports that succeeded.
What it notes itself, the reach of every import that was left included, is what the first one notes
at the same place. -/
inductive Abridges : List JournalEntry → List JournalEntry → Prop where
  | nothing : Abridges [] []
  | keep (entry : JournalEntry) {full short : List JournalEntry} (rest : Abridges full short) :
      Abridges (entry :: full) (entry :: short)
  | reuse (location : String) (chain : List String) (reach : Reach) {inside : List JournalEntry}
      {full short : List JournalEntry} (deeper : ∀ entry ∈ inside, entry.Below chain.length)
      (rest : Abridges full short) :
      Abridges (.entered location chain ::
          (inside ++ .left location chain.length true reach :: full))
        (.entered location chain :: .left location chain.length true reach :: short)

namespace Abridges

variable {full short full' short' : List JournalEntry}

theorem refl (journal : List JournalEntry) : Abridges journal journal := by
  induction journal with
  | nil => exact .nothing
  | cons entry rest step => exact .keep entry step

theorem append (first : Abridges full short) (second : Abridges full' short') :
    Abridges (full ++ full') (short ++ short') := by
  induction first with
  | nothing => exact second
  | keep entry _ step => exact .keep entry step
  | @reuse location chain reach inside full short deeper _ step =>
      rw [List.cons_append, List.append_assoc]
      exact .reuse location chain reach deeper step

end Abridges

/-- The journal of a session without a cache and that of a session with one have gone on from given
ones alike. -/
def JournalsAlike (journal journal' reached reached' : List JournalEntry) : Prop :=
  ∃ full short, reached = journal ++ full ∧ reached' = journal' ++ short ∧ Abridges full short

namespace JournalsAlike

variable {journal journal' middle middle' reached reached' : List JournalEntry}

theorem refl (journal journal' : List JournalEntry) :
    JournalsAlike journal journal' journal journal' :=
  ⟨[], [], (List.append_nil _).symm, (List.append_nil _).symm, .nothing⟩

theorem trans (first : JournalsAlike journal journal' middle middle')
    (second : JournalsAlike middle middle' reached reached') :
    JournalsAlike journal journal' reached reached' := by
  obtain ⟨full, short, rfl, rfl, abridged⟩ := first
  obtain ⟨full', short', rfl, rfl, abridged'⟩ := second
  exact ⟨_, _, List.append_assoc _ _ _, List.append_assoc _ _ _, abridged.append abridged'⟩

/-- Both note the same. -/
theorem note (journal journal' : List JournalEntry) (entry : JournalEntry) :
    JournalsAlike journal journal' (journal ++ [entry]) (journal' ++ [entry]) :=
  ⟨_, _, rfl, rfl, .refl [entry]⟩

end JournalsAlike

/-! ### Two resolvers step by step -/

/-- What lies outside a level is the same with a cache and without, apart from the inside of imports
that were answered from the cache; and the cache is faithful. -/
structure Outside.Follows (loader : Loader) (journal journal' : List JournalEntry)
    (outside : Outside σ) (other : Outside Cache) : Prop where
  chain : other.chain = outside.chain
  journals : JournalsAlike journal journal' outside.journal other.journal
  faithful : Cache.Faithful σ loader other.store

theorem Outside.Follows.since {loader : Loader} {journal journal' middle middle' : List JournalEntry}
    {outside : Outside σ} {other : Outside Cache}
    (follows : outside.Follows loader middle middle' other)
    (before : JournalsAlike journal journal' middle middle') :
    outside.Follows loader journal journal' other :=
  ⟨follows.chain, before.trans follows.journals, follows.faithful⟩

/-- An import with a cache comes to the same as the one without. -/
def Resolve.FollowedBy (loader : Loader) (resolve : Resolve σ) (resolve' : Resolve Cache)
    (room : Nat) : Prop :=
  ∀ location chain session session', chain.Entered room →
    Cache.Faithful σ loader session'.store →
    let fetched := resolve location chain session
    let other := resolve' location chain session'
    Outside.Follows loader session.journal session'.journal fetched.outside other.outside ∧
      fetched.Alike session.supply session'.supply other

/-- Two builders below the same settled chain, one of them with a cache. -/
def Outside.Joined (loader : Loader) (room : Nat) (journal journal' : List JournalEntry)
    (outside : Outside σ) (other : Outside Cache) : Prop :=
  outside.chain.Settled ∧ room + outside.chain.depth = outside.chain.maxDepth ∧
    outside.Follows loader journal journal' other

/-- Resolvers of which one follows the other keep two builders joined. -/
theorem Resolve.FollowedBy.inStep {loader : Loader} {resolve : Resolve σ}
    {resolve' : Resolve Cache} {room : Nat} (followed : resolve.FollowedBy loader resolve' room)
    (explores : ∀ location inner session, inner.Entered room →
      (resolve location inner session).Explores location inner session)
    (journal journal' : List JournalEntry) :
    resolve.InStep resolve' (Outside.Joined loader room journal journal') fun _ => False := by
  rintro location chain session chain' session' ⟨settled, bound, same, journals, faithful⟩
  change chain' = chain at same
  subst same
  refine .inr ⟨rfl, ?_⟩
  cases admitted : chain'.mayEnter location with
  | error failure =>
      rw [attempt_of_refused admitted, attempt_of_refused admitted]
      have cut := settled.recordCut
      refine ⟨⟨?_, ?_, rfl, journals, faithful⟩, Nat.le_refl _, Nat.le_refl _, .failed failure⟩
      · exact cut ▸ chain'.settled_record .cut
      · exact cut ▸ (chain'.depth_record .cut).symm ▸ bound
  | ok =>
      have entered := ImportChain.entered_entering bound admitted
      obtain ⟨follows, alike⟩ := followed location _ session session' entered faithful
      have left := (explores location _ session entered).explored.leave_eq entered
      rw [attempt_of_admitted admitted, attempt_of_admitted admitted]
      refine ⟨⟨?_, ?_, ?_⟩, alike.forward, alike.forward', alike.results⟩
      · exact left ▸ chain'.settled_record _
      · exact left ▸ (chain'.depth_record _).symm ▸ bound
      · exact ⟨congrArg ImportChain.leave follows.chain, journals.trans follows.journals,
          follows.faithful⟩

namespace Resolver

variable {loader : Loader} {room : Nat} {location : String} {chain : ImportChain}

/-- Keeping what was compiled leaves the result and the chain as they are, and the cache faithful. -/
theorem remember_follows {fetched : Fetched σ} {other : Fetched Cache} {session : Session σ}
    {start : IdSupply} {old : List String} {journal journal' : List JournalEntry}
    (entered : chain.Entered room)
    (ran : ((plain loader).resolveWithin room location chain session).result = fetched.result ∧
      ((plain loader).resolveWithin room location chain session).chain = fetched.chain ∧
      ((plain loader).resolveWithin room location chain session).session.supply =
        fetched.session.supply)
    (sound : other.Sound Cache.Sound old start)
    (follows : fetched.outside.Follows loader journal journal' other.outside)
    (alike : fetched.Alike session.supply start other) :
    fetched.outside.Follows loader journal journal' (remember location other).outside ∧
      fetched.Alike session.supply start (remember location other) := by
  obtain ⟨result, reached, supply⟩ := ran
  unfold remember
  split
  · exact ⟨follows, alike⟩
  · next graph given =>
      split
      · exact ⟨follows, alike⟩
      · have made := sound.made graph given
        have results := alike.results
        rw [given] at results
        have kept := follows.faithful.keep entered made (result ▸ supply ▸ results)
        have later := (Session.keep_sound sound.session location other.chain.reach made.sound
          made.distinct).1
        have same : other.chain.reach = fetched.chain.reach := congrArg ImportChain.reach follows.chain
        rw [reached, ← same] at kept
        exact ⟨⟨follows.chain, follows.journals, kept⟩, alike.forward,
          Nat.le_trans alike.forward' later, alike.results.later (Nat.le_refl _) later⟩

/-- Where nothing is found for a location, both fail. -/
theorem failed_follows (session : Session σ) (session' : Session Cache)
    (faithful : Cache.Faithful σ loader session'.store) (location : String) (chain : ImportChain)
    (failure : ImportError) :
    let noted := (session.note (.entered location chain.locations)).note (.loaded location false)
    let noted' := (session'.note (.entered location chain.locations)).note (.loaded location false)
    let fetched : Fetched σ := ⟨.error failure, chain, noted⟩
    let other : Fetched Cache := ⟨.error failure, chain, noted'⟩
    fetched.outside.Follows loader noted.journal noted'.journal other.outside ∧
      fetched.Alike session.supply session'.supply other :=
  ⟨⟨rfl, .refl _ _, faithful⟩, Nat.le_refl _, Nat.le_refl _, .failed failure⟩

/-- With a cache, what is found for a location comes to the same as without. -/
theorem caching_found {source : String} (entered : chain.Entered (room + 1))
    (found : loader location = .ok source)
    (step : Resolve.FollowedBy (σ := σ) loader ((plain loader).resolveWithin room)
      ((caching loader).resolveWithin room) room) (session : Session σ) (session' : Session Cache)
    (faithful : Cache.Faithful σ loader session'.store) :
    let noted := (session.note (.entered location chain.locations)).note (.loaded location true)
    let noted' := (session'.note (.entered location chain.locations)).note (.loaded location true)
    let fetched := compileSource ((plain loader).resolveWithin room) location source chain noted
    let other := remember location
      (compileSource ((caching loader).resolveWithin room) location source chain noted')
    fetched.outside.Follows loader noted.journal noted'.journal other.outside ∧
      fetched.Alike session.supply session'.supply other := by
  intro noted noted' fetched other
  have bound : room + chain.depth = chain.maxDepth := by
    have := entered.bound
    omega
  rcases compileSource_alike
    (step.inStep (plain_explores loader room) noted.journal noted'.journal) (fun _ _ _ => id) location
    source noted noted' ⟨entered.settled, bound, rfl, .refl _ _, faithful⟩
    with away | ⟨⟨_, _, follows⟩, alike⟩
  · exact away.elim
  · have ran := plain_resolveWithin_of_found room chain found session
    have sound := compileSource_sound ((caching_sound loader).resolveWithin room) session'.log location
      source chain noted' ⟨fun _ => .inl, faithful.sound⟩
    exact remember_follows entered (by simp only [ran]; exact ⟨rfl, rfl, rfl⟩) sound follows alike

/-- An import that is answered from the cache comes to the same as one that is not. -/
theorem caching_hit {entry : CacheEntry} (entered : chain.Entered room) (session : Session σ)
    (session' : Session Cache) (faithful : Cache.Faithful σ loader session'.store)
    (found : session'.store.fitting? location chain = some entry) :
    let fetched := (plain loader).resolveWithin room location chain session
    let noted := session'.note (.entered location chain.locations)
    let copied := noted.copy entry.graph
    let reached := chain.record entry.reach
    let other : Fetched Cache := ⟨.ok copied.1, reached,
      copied.2.note (.left location chain.depth true reached.reach)⟩
    fetched.outside.Follows loader session.journal session'.journal other.outside ∧
      fetched.Alike session.supply session'.supply other := by
  intro fetched noted copied reached other
  have hit : fetched.chain = reached ∧ ResultsAlike session.supply fetched.session.supply
      noted.supply copied.2.supply fetched.result (.ok copied.1) :=
    Cache.Faithful.hit noted faithful entered found session
  obtain ⟨same, results⟩ := hit
  obtain ⟨inside, journal, deeper⟩ := (plain_explores loader room location chain session
    entered).noted
  have succeeded : fetched.result.isOk = true := results.isOk_eq
  change fetched.session.journal = session.journal ++ .entered location chain.locations ::
    (inside ++ [.left location chain.depth fetched.result.isOk fetched.chain.reach]) at journal
  rw [succeeded, same] at journal
  have abridged : Abridges (.entered location chain.locations ::
      (inside ++ [.left location chain.locations.length true reached.reach]))
      [.entered location chain.locations, .left location chain.locations.length true reached.reach] :=
    .reuse location chain.locations reached.reach
      (fun entry held => chain.length_locations.symm ▸ deeper entry held) .nothing
  rw [chain.length_locations] at abridged
  exact ⟨⟨same.symm, ⟨_, _, journal, List.append_assoc session'.journal _ _, abridged⟩, faithful⟩,
    results.forward.1, results.forward.2, results⟩

/-- Leaving a location is noted alike. -/
theorem follows_left {fetched : Fetched σ} {other : Fetched Cache} {start start' : IdSupply}
    {journal journal' : List JournalEntry}
    (follows : fetched.outside.Follows loader journal journal' other.outside)
    (alike : fetched.Alike start start' other) (depth : Nat) :
    let noted := { fetched with
      session := fetched.session.note (.left location depth fetched.result.isOk fetched.chain.reach) }
    let noted' := { other with
      session := other.session.note (.left location depth other.result.isOk other.chain.reach) }
    noted.outside.Follows loader journal journal' noted'.outside ∧ noted.Alike start start' noted' := by
  obtain ⟨same, journals, faithful⟩ := follows
  refine ⟨⟨same, journals.trans ?_, faithful⟩, alike.forward, alike.forward', alike.results⟩
  have reach : other.chain.reach = fetched.chain.reach := congrArg ImportChain.reach same
  have entry : JournalEntry.left location depth other.result.isOk other.chain.reach =
      .left location depth fetched.result.isOk fetched.chain.reach := by
    rw [reach, alike.results.isOk_eq]
  show JournalsAlike _ _ (fetched.session.journal ++ _) (other.session.journal ++ [_])
  rw [entry]
  exact .note _ _ _

/-- However much room there is, importing with a cache comes to the same as without. -/
theorem caching_follows (loader : Loader) (room : Nat) :
    Resolve.FollowedBy (σ := σ) loader ((plain loader).resolveWithin room)
      ((caching loader).resolveWithin room) room := by
  induction room with
  | zero => exact fun _ _ _ _ entered => absurd entered.positive (Nat.lt_irrefl 0)
  | succ room step =>
      intro location chain session session' entered faithful
      have unfolded : (caching loader).resolveWithin (room + 1) location chain session' =
          journaled ((caching loader).answer (compileSource ((caching loader).resolveWithin room)))
            location chain session' := rfl
      have noted := JournalsAlike.note session.journal session'.journal
        (.entered location chain.locations)
      rw [unfolded, journaled, caching_answer]
      cases fitting : session'.store.fitting? location chain with
      | some entry =>
          have fitting' : (session'.note (.entered location chain.locations)).store.fitting? location
            chain = some entry := fitting
          rw [fitting']
          exact caching_hit entered session session' faithful fitting
      | none =>
          have fitting' : (session'.note (.entered location chain.locations)).store.fitting? location
            chain = none := fitting
          rw [fitting']
          cases found : loader location with
          | error failure =>
              rw [plain_resolveWithin_of_missing found]
              obtain ⟨follows, alike⟩ := failed_follows session session' faithful location chain
                failure
              exact follows_left (follows.since (noted.trans (.note _ _ (.loaded location false))))
                alike chain.depth
          | ok source =>
              rw [plain_resolveWithin_of_found room chain found]
              obtain ⟨follows, alike⟩ := caching_found entered found step session session' faithful
              exact follows_left (follows.since (noted.trans (.note _ _ (.loaded location true))))
                alike chain.depth

end Resolver

end RecipeGraph
