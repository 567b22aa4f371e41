/-
# What a cache may be trusted with

An entry of a cache is faithful when compiling its location anew, under any chain that its reach
fits and in any session, would give its graph under other identifiers and reach the same. Handing
out a copy of a faithful entry is then as good as compiling. A graph that has just been compiled
without a cut makes a faithful entry, since what an import comes to does not depend on the chain
beyond what its reach says.
-/

import RecipeGraph.Proofs.Session.Independence

namespace RecipeGraph

variable {σ : Type}

/-! ### Results that are alike -/

/-- Pairings compose where the second stretch of the one is the first stretch of the other. -/
theorem Pairing.comp {R S : Id → Id → Prop} {start stop start' stop' start'' stop'' : IdSupply}
    (one : Pairing R start stop start' stop') (two : Pairing S start' stop' start'' stop'') :
    Pairing (Relation.Comp R S) start stop start'' stop'' where
  unique := by
    constructor
    · rintro id other id'' ⟨id', here, there⟩ ⟨other', here', there'⟩
      exact one.unique.1 here (two.unique.1 there there' ▸ here')
    · rintro id id'' other'' ⟨id', here, there⟩ ⟨other', here', there'⟩
      exact two.unique.2 there (one.unique.2 here here' ▸ there')
  first := fun _ _ ⟨_, here, _⟩ => one.first _ _ here
  second := fun _ _ ⟨_, _, there⟩ => two.second _ _ there
  forward := one.forward
  forward' := two.forward'

namespace ResultsAlike

variable {start stop start' stop' start'' stop'' : IdSupply}
  {result result' result'' : Except ImportError Dag}

theorem flip (alike : ResultsAlike start stop start' stop' result result') :
    ResultsAlike start' stop' start stop result' result := by
  cases alike with
  | failed failure => exact .failed failure
  | given pairing same root root' => exact .given pairing.swap same.flip root' root

theorem comp (one : ResultsAlike start stop start' stop' result result')
    (two : ResultsAlike start' stop' start'' stop'' result' result'') :
    ResultsAlike start stop start'' stop'' result result'' := by
  cases one with
  | failed failure =>
      cases two with
      | failed => exact .failed failure
  | given pairing same root root' =>
      cases two with
      | given pairing' same' _ root'' =>
          exact .given (pairing.comp pairing') (same.comp same') root root''

/-- The supplies may go on afterwards. -/
theorem later {middle middle' : IdSupply}
    (alike : ResultsAlike start middle start' middle' result result')
    (forward : middle.next ≤ stop.next) (forward' : middle'.next ≤ stop'.next) :
    ResultsAlike start stop start' stop' result result' := by
  cases alike with
  | failed failure => exact .failed failure
  | given pairing same root root' =>
      exact .given (pairing.later forward forward') same root root'

/-- A fresh copy is like the original. -/
theorem copied {graph : Dag} (made : graph.Made start stop) (root : graph.parent = none)
    (supply : IdSupply) :
    ResultsAlike start stop supply (graph.freshCopy supply).2 (.ok graph)
      (.ok (graph.freshCopy supply).1) := by
  obtain ⟨M, renames, same⟩ := Dag.copiesWell made.sound made.distinct supply
  refine .given ⟨renames.unique, ?_, renames.to_new, made.forward, renames.forward⟩ same root ?_
  · exact fun id id' related => made.between id (renames.from_old id id' related)
  · rw [Dag.freshCopy_eq]
    exact root

theorem isOk_eq (alike : ResultsAlike start stop start' stop' result result') :
    result.isOk = result'.isOk := by
  cases alike with
  | failed _ => rfl
  | given _ _ _ _ => rfl

theorem forward {graph : Dag} (alike : ResultsAlike start stop start' stop' result (.ok graph)) :
    start.next ≤ stop.next ∧ start'.next ≤ stop'.next := by
  cases alike with
  | given pairing _ _ _ => exact ⟨pairing.forward, pairing.forward'⟩

theorem root_right {graph : Dag} (alike : ResultsAlike start stop start' stop' result (.ok graph)) :
    graph.parent = none := by
  cases alike with
  | given _ _ _ root => exact root

end ResultsAlike

/-! ### Faithful entries -/

/-- What is kept for a location was made in one stretch of work, and compiling anew gives the same
wherever the reach kept with it fits. -/
def CacheEntry.Faithful (σ : Type) (loader : Loader) (location : String) (entry : CacheEntry) :
    Prop :=
  ∃ start stop, entry.graph.Made start stop ∧
    ∀ room chain (session : Session σ), chain.Entered room → entry.reach.fits chain = true →
      let fetched := (Resolver.plain loader).resolveWithin room location chain session
      fetched.chain = chain.record entry.reach ∧
        ResultsAlike session.supply fetched.session.supply start stop fetched.result
          (.ok entry.graph)

/-- Everything that a cache keeps is faithful. -/
def Cache.Faithful (σ : Type) (loader : Loader) (cache : Cache) : Prop :=
  ∀ kept ∈ cache.entries, kept.2.Faithful σ loader kept.1

theorem Cache.faithful_empty (loader : Loader) : Cache.Faithful σ loader .empty := nofun

theorem Cache.Faithful.sound {loader : Loader} {cache : Cache}
    (faithful : Cache.Faithful σ loader cache) : cache.Sound := by
  intro entry held
  obtain ⟨location, inside⟩ := OrderedMap.mem_values.1 held
  obtain ⟨start, stop, made, _⟩ := faithful _ inside
  exact ⟨made.sound, made.distinct⟩

/-- A copy of what is found in a faithful cache is what compiling anew would have given. -/
theorem Cache.Faithful.hit {loader : Loader} {location : String} {chain : ImportChain} {room : Nat}
    {entry : CacheEntry} (session' : Session Cache)
    (faithful : Cache.Faithful σ loader session'.store) (entered : chain.Entered room)
    (found : session'.store.fitting? location chain = some entry) (session : Session σ) :
    let fetched := (Resolver.plain loader).resolveWithin room location chain session
    fetched.chain = chain.record entry.reach ∧
      ResultsAlike session.supply fetched.session.supply session'.supply
        (session'.copy entry.graph).2.supply fetched.result (.ok (session'.copy entry.graph).1) := by
  obtain ⟨held, fits⟩ := Option.filter_eq_some_iff.1 found
  obtain ⟨start, stop, made, same⟩ := faithful _ (OrderedMap.mem_of_get? held)
  obtain ⟨reached, alike⟩ := same room chain session entered fits
  exact ⟨reached, alike.comp (.copied made alike.root_right session'.supply)⟩

/-- What has just been compiled without a cut may be kept. -/
theorem Cache.Faithful.keep {loader : Loader} {room : Nat} {location : String} {chain : ImportChain}
    {session : Session σ} (entered : chain.Entered room) {start : IdSupply}
    {session' : Session Cache} (faithful : Cache.Faithful σ loader session'.store) {graph : Dag}
    (made : graph.Made start session'.supply)
    (alike : ResultsAlike session.supply
      ((Resolver.plain loader).resolveWithin room location chain session).session.supply start
      session'.supply ((Resolver.plain loader).resolveWithin room location chain session).result
      (.ok graph)) :
    Cache.Faithful σ loader (session'.keep location graph
      ((Resolver.plain loader).resolveWithin room location chain session).chain.reach).store := by
  intro kept held
  rcases OrderedMap.mem_entries_insert held with rfl | old
  · refine ⟨_, _, Dag.freshCopy_made made.sound made.distinct session'.supply, ?_⟩
    intro room' chain' session'' entered' fits
    obtain ⟨other, reached⟩ := Resolver.plain_independent loader room room' location chain chain'
      session session'' entered entered' fits
    exact ⟨reached, other.results.flip.comp (alike.comp
      (.copied made alike.root_right session'.supply))⟩
  · exact faithful kept old

end RecipeGraph
