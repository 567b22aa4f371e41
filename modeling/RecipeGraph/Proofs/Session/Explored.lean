/-
# What an import without memory leaves behind

A resolver without memory explores everything below the location it is asked for. Whatever it does
amounts to one record on the chain it was given, it notes in the journal nothing that is not further
in, and unless an import was cut off, no location that it reached is on that chain. These facts are
about one run; they hold because every import inside is a run of the same kind with less room.
-/

import RecipeGraph.Proofs.Build.Attempts
import RecipeGraph.Proofs.Session.Soundness

namespace RecipeGraph

/-- Whether an entry was made more than `depth` imports deep. Texts are loaded for the import entered
last, so what is noted of them needs no place of its own. -/
def JournalEntry.Below (depth : Nat) : JournalEntry → Prop
  | .loaded _ _ => True
  | .entered _ chain => depth < chain.length
  | .left _ here _ _ => depth < here

theorem JournalEntry.Below.mono {entry : JournalEntry} {depth depth' : Nat}
    (below : entry.Below depth) (less : depth' ≤ depth) : entry.Below depth' := by
  cases entry with
  | loaded location found => trivial
  | entered location chain => exact Nat.lt_of_le_of_lt less below
  | left location here succeeded reach => exact Nat.lt_of_le_of_lt less below

namespace ImportChain

theorem length_locations (chain : ImportChain) : chain.locations.length = chain.depth := by
  simp [locations, depth]

/-- A chain whose last location has only just been entered, and which leaves room for exactly
`room` imports, that one included. -/
structure Entered (chain : ImportChain) (room : Nat) : Prop where
  settled : chain.Settled
  nonempty : chain.steps ≠ []
  fresh : chain.reach = .nothing
  bound : room + chain.depth = chain.maxDepth + 1
  positive : 0 < room

/-- A location that may be entered leaves one import less room. -/
theorem entered_entering {chain : ImportChain} {location : String} {room : Nat}
    (left : room + chain.depth = chain.maxDepth) (admitted : chain.mayEnter location = .ok ()) :
    (chain.entering location).Entered room where
  settled := chain.settled_entering location
  nonempty := List.cons_ne_nil _ _
  fresh := rfl
  bound := by
    rw [depth_entering, maxDepth_entering]
    omega
  positive := by
    have := (mayEnter_eq_ok_iff.1 admitted).2
    omega

/-- One chain came out of another one while imports were explored: something was recorded on it,
and unless an import was cut off, nothing that was reached is on the chain itself. -/
structure Explored (chain reached : ImportChain) : Prop where
  recorded : ∃ below, reached = chain.record below
  clear : reached.reach.truncated = false →
    ∀ location ∈ reached.reach.locations.members, chain.contains location = false

namespace Explored

variable {chain reached : ImportChain} {room : Nat} {location : String}

theorem refl (entered : chain.Entered room) : chain.Explored chain where
  recorded := ⟨.nothing, entered.settled.symm⟩
  clear := by
    rw [entered.fresh]
    exact fun _ _ held => absurd held List.not_mem_nil

/-- What was recorded can be read off the chain. -/
theorem eq_record (explored : chain.Explored reached) (entered : chain.Entered room) :
    chain.record reached.reach = reached := by
  obtain ⟨below, rfl⟩ := explored.recorded
  exact entered.settled.eq_record_reach entered.nonempty entered.fresh below

theorem settled (explored : chain.Explored reached) : reached.Settled := by
  obtain ⟨below, rfl⟩ := explored.recorded
  exact chain.settled_record below

theorem nonempty (explored : chain.Explored reached) (entered : chain.Entered room) :
    reached.steps ≠ [] := by
  obtain ⟨below, rfl⟩ := explored.recorded
  exact record_steps_ne_nil entered.nonempty below

theorem depth_eq (explored : chain.Explored reached) : reached.depth = chain.depth := by
  obtain ⟨below, rfl⟩ := explored.recorded
  exact chain.depth_record below

theorem maxDepth_eq (explored : chain.Explored reached) : reached.maxDepth = chain.maxDepth := by
  obtain ⟨below, rfl⟩ := explored.recorded
  rfl

theorem contains_eq (explored : chain.Explored reached) (location : String) :
    reached.contains location = chain.contains location := by
  obtain ⟨below, rfl⟩ := explored.recorded
  exact chain.contains_record below location

/-- An import that the chain refuses is a cut. -/
theorem cut (explored : chain.Explored reached) (entered : chain.Entered room) :
    chain.Explored reached.recordCut := by
  rw [explored.settled.recordCut]
  constructor
  · obtain ⟨below, rfl⟩ := explored.recorded
    exact ⟨_, chain.record_record below .cut⟩
  · intro whole
    rw [reach_record (explored.nonempty entered)] at whole
    simp [Reach.adding, Reach.cut] at whole

/-- What is recorded below one more import is, once it is over, one record. -/
theorem leave_eq {inner : ImportChain} (explored : (chain.entering location).Explored inner)
    (entered : (chain.entering location).Entered room) :
    inner.leave = chain.record ((Reach.ofImport location).adding inner.reach 1) := by
  rw [← leave_record_entering, explored.eq_record entered]

/-- What is explored below one more import belongs to what is explored below the chain. -/
theorem enter (explored : chain.Explored reached) (entered : chain.Entered room)
    (admitted : reached.mayEnter location = .ok ()) {inner : ImportChain} {room' : Nat}
    (entered' : (reached.entering location).Entered room')
    (explored' : (reached.entering location).Explored inner) : chain.Explored inner.leave := by
  rw [explored'.leave_eq entered']
  constructor
  · obtain ⟨below, rfl⟩ := explored.recorded
    exact ⟨_, chain.record_record below _⟩
  · rw [reach_record (explored.nonempty entered)]
    intro whole
    simp only [Reach.adding, Bool.or_eq_false_iff] at whole
    obtain ⟨before, _, inside⟩ := whole
    intro other held
    rcases (OrderedSet.mem_extend _ _ _).1 held with new | old
    · rcases (OrderedSet.mem_extend _ _ _).1 new with below | here
      · have absent := explored'.clear inside other below
        rw [contains_entering, Bool.or_eq_false_iff, explored.contains_eq] at absent
        exact absent.2
      · obtain rfl := List.mem_singleton.1 here
        rw [← explored.contains_eq]
        exact (mayEnter_eq_ok_iff.1 admitted).1
    · exact explored.clear before other old

end Explored

/-- An import that is admitted below a chain leaves one import less room. -/
theorem Entered.entering {chain reached : ImportChain} {location : String} {room : Nat}
    (entered : chain.Entered (room + 1)) (explored : chain.Explored reached)
    (admitted : reached.mayEnter location = .ok ()) : (reached.entering location).Entered room := by
  refine entered_entering ?_ admitted
  have bound := entered.bound
  rw [explored.depth_eq, explored.maxDepth_eq]
  omega

end ImportChain

section Plain

variable {τ : Type} {loader : Loader}

/-- What an import leaves behind that was asked for under a chain: the chain explored, and a journal
that goes on with what was noted further in, between entering and leaving. -/
structure Fetched.Explores (fetched : Fetched τ) (location : String) (chain : ImportChain)
    (session : Session τ) : Prop where
  explored : chain.Explored fetched.chain
  noted : ∃ inside, fetched.session.journal =
      session.journal ++ .entered location chain.locations :: (inside ++
        [.left location chain.depth fetched.result.isOk fetched.chain.reach]) ∧
    ∀ entry ∈ inside, entry.Below chain.depth

/-- What has been explored below a chain, with what was noted meanwhile. -/
structure Outside.Explored (chain : ImportChain) (journal : List JournalEntry)
    (outside : Outside τ) : Prop where
  explored : chain.Explored outside.chain
  noted : ∃ inside, outside.journal = journal ++ inside ∧
    ∀ entry ∈ inside, entry.Below chain.depth

/-- Attempts to import keep to what has been explored below a chain, if there is room for one import
less below the locations they enter. -/
theorem Resolve.explored_attempt {resolve : Resolve τ} {room : Nat} {chain : ImportChain}
    {journal : List JournalEntry} (entered : chain.Entered (room + 1))
    (explores : ∀ location inner session, inner.Entered room →
      (resolve location inner session).Explores location inner session) :
    Work.Preserves resolve (Outside.Explored chain journal) := by
  intro location reached session explored
  cases admitted : reached.mayEnter location with
  | error failure =>
      rw [Resolve.attempt_of_refused admitted]
      exact ⟨explored.explored.cut entered, explored.noted⟩
  | ok =>
      have depth := explored.explored.depth_eq
      have entered' := entered.entering explored.explored admitted
      have inner := explores location _ session entered'
      rw [Resolve.attempt_of_admitted admitted]
      refine ⟨explored.explored.enter entered admitted entered' inner.explored, ?_⟩
      obtain ⟨before, same, below⟩ := explored.noted
      obtain ⟨inside, same', below'⟩ := inner.noted
      refine ⟨_, same'.trans ((congrArg (· ++ _) same).trans (List.append_assoc _ _ _)), ?_⟩
      intro entry held
      have deeper : chain.depth < (reached.entering location).depth := by
        rw [ImportChain.depth_entering, depth]
        exact Nat.lt_succ_self _
      rcases List.mem_append.1 held with old | new
      · exact below entry old
      · rcases List.mem_cons.1 new with rfl | new
        · show chain.depth < _
          rw [ImportChain.length_locations]
          exact deeper
        · rcases List.mem_append.1 new with inner | last
          · exact (below' entry inner).mono (Nat.le_of_lt deeper)
          · obtain rfl := List.mem_singleton.1 last
            exact deeper

/-- However much room there is, a resolver without memory explores what is below a location. -/
theorem Resolver.plain_explores (loader : Loader) (room : Nat) (location : String)
    (chain : ImportChain) (session : Session τ) (entered : chain.Entered room) :
    ((Resolver.plain loader).resolveWithin room location chain session).Explores location chain
      session := by
  induction room generalizing location chain session with
  | zero => exact absurd entered.positive (Nat.lt_irrefl 0)
  | succ room step =>
      have inside : Outside.Explored chain (session.journal ++ [.entered location chain.locations])
          ((Resolver.plain loader).answer (compileSource ((Resolver.plain loader).resolveWithin room))
            location chain (session.note (.entered location chain.locations))).outside := by
        have loaded : ∀ found, Outside.Explored chain
            (session.journal ++ [.entered location chain.locations]) (τ := τ)
            ⟨chain, session.journal ++ [.entered location chain.locations] ++
              [.loaded location found], session.store⟩ := fun found =>
          ⟨.refl entered, _, rfl, fun entry held => List.mem_singleton.1 held ▸ trivial⟩
        rw [plain_answer]
        split
        · exact loaded false
        · unfold compileSource
          split
          · exact loaded true
          · exact Work.Preserves.placeAll (Resolve.explored_attempt entered step) _ (loaded true)
      obtain ⟨entries, same, below⟩ := inside.noted
      refine ⟨inside.explored, entries, ?_, below⟩
      refine (congrArg (· ++ _) same).trans ?_
      rw [List.append_assoc, List.append_assoc]
      rfl

end Plain

end RecipeGraph
