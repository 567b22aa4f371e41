/-
# A cache loads each recipe once

Through a session with a cache, two things are kept in step: how often the journal says that a text
was loaded, and whether the location is in the cache or is being compiled. Where imports run in no
circle and there is room for all of them, nothing is cut off; so whatever is compiled is kept, and
whatever is kept fits every chain on which its location comes up again. A recipe is therefore loaded
at most once. Locations without a recipe are asked for again and again, as failures are not kept.
-/

import RecipeGraph.Proofs.Import.Acyclic
import RecipeGraph.Proofs.Session.Exact

namespace RecipeGraph

open ImportChain (way_record way_entering mem_way_iff)

/-- Whether an entry says that the text at a location was asked for. -/
def JournalEntry.loads (location : String) : JournalEntry → Bool
  | .loaded other _ => decide (other = location)
  | _ => false

/-- How often a journal says that the text at a location was asked for. -/
def timesLoaded (journal : List JournalEntry) (location : String) : Nat :=
  journal.countP (·.loads location)

/-- There is a recipe at a location: a text that is understood as a whole. -/
def Loader.HasRecipe (loader : Loader) (location : String) : Prop :=
  ∃ source recipe, loader location = .ok source ∧ Recipe.parse source = .ok recipe

theorem Loader.not_hasRecipe_of_missing {loader : Loader} {location : String}
    {failure : ImportError} (missing : loader location = .error failure) :
    ¬ loader.HasRecipe location := by
  rintro ⟨source, recipe, found, _⟩
  rw [missing] at found
  cases found

theorem Loader.not_hasRecipe_of_unread {loader : Loader} {location source : String}
    {failure : ParseError} (found : loader location = .ok source)
    (unread : Recipe.parse source = .error failure) : ¬ loader.HasRecipe location := by
  rintro ⟨source', recipe, found', read⟩
  obtain rfl := Except.ok.inj (found.symm.trans found')
  rw [unread] at read
  cases read

/-! ### Accounts of what was loaded -/

/-- Every recipe was loaded at most once, and if it was, it is kept or it is being compiled. What is
kept with it is no more than its imports lead to. -/
structure LoadedOnce (loader : Loader) (underway : List String) (journal : List JournalEntry)
    (cache : Cache) : Prop where
  charted : ∀ kept ∈ cache.entries, kept.2.reach.Charted loader kept.1
  once : ∀ location, loader.HasRecipe location → timesLoaded journal location ≤ 1
  held : ∀ location, loader.HasRecipe location → timesLoaded journal location ≠ 0 →
    location ∈ cache.keys ∨ location ∈ underway

namespace LoadedOnce

variable {loader : Loader} {underway : List String} {journal : List JournalEntry} {cache : Cache}
  {location : String}

theorem start (loader : Loader) : LoadedOnce loader [] [] .empty :=
  ⟨nofun, fun _ _ => Nat.zero_le 1, fun _ _ loaded => absurd rfl loaded⟩

theorem timesLoaded_append (journal : List JournalEntry) (entry : JournalEntry)
    (location : String) : timesLoaded (journal ++ [entry]) location =
      timesLoaded journal location + if entry.loads location then 1 else 0 := by
  rw [timesLoaded, List.countP_append, List.countP_singleton]
  rfl

/-- An entry that tells of no recipe being loaded changes nothing. -/
theorem note (account : LoadedOnce loader underway journal cache) {entry : JournalEntry}
    (other : ∀ location, loader.HasRecipe location → entry.loads location = false) :
    LoadedOnce loader underway (journal ++ [entry]) cache := by
  have same : ∀ location, loader.HasRecipe location →
      timesLoaded (journal ++ [entry]) location = timesLoaded journal location := by
    intro location recipe
    rw [timesLoaded_append, other location recipe]
    rfl
  exact ⟨account.charted,
    fun location recipe => same location recipe ▸ account.once location recipe,
    fun location recipe => same location recipe ▸ account.held location recipe⟩

/-- A text that is no recipe may be loaded any number of times. -/
theorem loadedNothing (account : LoadedOnce loader underway journal cache)
    (nothing : ¬ loader.HasRecipe location) (found : Bool) :
    LoadedOnce loader underway (journal ++ [.loaded location found]) cache := by
  refine account.note fun other recipe => decide_eq_false ?_
  rintro rfl
  exact nothing recipe

/-- A recipe may be loaded that is neither kept nor being compiled. Then it is being compiled. -/
theorem loaded (account : LoadedOnce loader underway journal cache) (unkept : location ∉ cache.keys)
    (new : location ∉ underway) (found : Bool) :
    LoadedOnce loader (location :: underway) (journal ++ [.loaded location found]) cache := by
  refine ⟨account.charted, fun other recipe => ?_, fun other recipe loaded => ?_⟩
  · rw [timesLoaded_append]
    by_cases same : location = other
    · subst same
      have never : timesLoaded journal location = 0 := by
        by_contra loaded
        exact (account.held location recipe loaded).elim unkept new
      rw [never, Nat.zero_add]
      split
      · exact Nat.le_refl 1
      · exact Nat.zero_le 1
    · simpa [JournalEntry.loads, same] using account.once other recipe
  · by_cases same : location = other
    · exact .inr (same ▸ List.mem_cons_self)
    · have before : timesLoaded journal other ≠ 0 := by
        simpa [timesLoaded_append, JournalEntry.loads, same] using loaded
      exact (account.held other recipe before).imp id (List.mem_cons_of_mem _)

/-- What was compiled is kept and is no longer being compiled. -/
theorem keep (account : LoadedOnce loader (location :: underway) journal cache) {entry : CacheEntry}
    (charted : entry.reach.Charted loader location) :
    LoadedOnce loader underway journal (cache.insert location entry) := by
  refine ⟨fun kept held => ?_, account.once, fun other recipe loaded => ?_⟩
  · rcases OrderedMap.mem_entries_insert held with rfl | old
    · exact charted
    · exact account.charted kept old
  · rw [OrderedMap.mem_keys_insert]
    rcases account.held other recipe loaded with old | inside
    · exact .inl (.inr old)
    · exact (List.mem_cons.1 inside).imp .inl id

end LoadedOnce

/-! ### Along a chain -/

/-- Where a compilation stands: on the way it has come, with right records and in accounts. -/
structure Outside.Frugal (loader : Loader) (maxDepth : Nat) (way : List String)
    (outside : Outside Cache) : Prop where
  along : outside.chain.way = way
  bound : outside.chain.maxDepth = maxDepth
  charted : outside.chain.Charted loader
  account : LoadedOnce loader way outside.journal outside.store

/-- An import that is asked for at the end of a way leaves right records and accounts: what was being
compiled before it is being compiled after it, and nothing else is. -/
def Resolve.Frugal (loader : Loader) (maxDepth : Nat) (resolve : Resolve Cache) : Prop :=
  ∀ location outer chain session, chain.way = location :: outer → chain.maxDepth = maxDepth →
    chain.Charted loader → LoadedOnce loader outer session.journal session.store →
    let fetched := resolve location chain session
    fetched.chain.way = location :: outer ∧ fetched.chain.maxDepth = maxDepth ∧
      fetched.chain.Charted loader ∧
      LoadedOnce loader outer fetched.session.journal fetched.session.store

section Frugal

variable {loader : Loader} {maxDepth : Nat} {resolve : Resolve Cache} {way outer : List String}
  {location : String} {chain : ImportChain} {session : Session Cache}

/-- Importing what the text at the end of a way imports keeps the accounts. -/
theorem Resolve.Frugal.attempt (frugal : resolve.Frugal loader maxDepth)
    (layered : loader.Layered maxDepth)
    (before : Outside.Frugal loader maxDepth way ⟨chain, session.journal, session.store⟩)
    (imported : ∀ importer ∈ way.head?, loader.Imports importer location) :
    (resolve.attempt location chain session).outside.Frugal loader maxDepth way := by
  obtain ⟨along, bound, charted, account⟩ := before
  dsimp only at along bound charted account
  subst along
  have admitted := charted.mayEnter layered (Nat.le_of_eq bound.symm) imported
  obtain ⟨along', bound', charted', account'⟩ := frugal location chain.way (chain.entering location)
    session (way_entering _ _) bound (charted.entering imported) account
  rw [Resolve.attempt_of_admitted admitted]
  refine ⟨?_, bound', charted'.leave, account'⟩
  exact (ImportChain.Charted.way_leave _).trans (congrArg List.tail along')

/-- Any number of such imports keep the accounts. -/
theorem Resolve.Frugal.attempts (frugal : resolve.Frugal loader maxDepth)
    (layered : loader.Layered maxDepth) {locations : List String} {before after : Outside Cache}
    (attempts : resolve.Attempts locations before after)
    (imported : ∀ location ∈ locations, ∀ importer ∈ way.head?, loader.Imports importer location)
    (kept : before.Frugal loader maxDepth way) : after.Frugal loader maxDepth way := by
  induction attempts with
  | nothing outside => exact kept
  | next later step =>
      obtain ⟨here, rest⟩ := List.forall_mem_cons.1 imported
      exact step rest (frugal.attempt layered kept here)

/-- A recipe is compiled at the end of a way. -/
theorem Resolve.Frugal.compileSource (frugal : resolve.Frugal loader maxDepth)
    (layered : loader.Layered maxDepth) {source : String} {recipe : Recipe}
    (found : loader location = .ok source) (read : Recipe.parse source = .ok recipe)
    (kept : Outside.Frugal loader maxDepth (location :: outer)
      ⟨chain, session.journal, session.store⟩) :
    (Resolver.compileSource resolve location source chain session).outside.Frugal loader maxDepth
      (location :: outer) := by
  unfold Resolver.compileSource
  rw [read]
  refine frugal.attempts layered (recipe.attempts_build resolve chain session) ?_ kept
  intro other imported importer first
  obtain rfl := Option.some.inj first
  exact ⟨source, recipe, found, read, imported⟩

namespace Resolver

/-- What was compiled without a cut is kept. -/
theorem remember_frugal {fetched : Fetched Cache} {graph : Dag} (given : fetched.result = .ok graph)
    (kept : fetched.outside.Frugal loader maxDepth (location :: outer)) :
    let after := remember location fetched
    after.chain.way = location :: outer ∧ after.chain.maxDepth = maxDepth ∧
      after.chain.Charted loader ∧ LoadedOnce loader outer after.session.journal after.session.store
      := by
  have reach : fetched.chain.reach.Charted loader location := kept.charted.reach kept.along
  unfold remember
  rw [given]
  dsimp only
  rw [if_neg (by simp [reach.whole])]
  exact ⟨kept.along, kept.bound, kept.charted, kept.account.keep reach⟩

/-- Whatever is kept fits the chains on which it is asked for. -/
theorem not_mem_keys_of_miss (layered : loader.Layered maxDepth)
    (along : chain.way = location :: outer) (bound : chain.maxDepth = maxDepth)
    (charted : chain.Charted loader) (account : LoadedOnce loader outer session.journal session.store)
    (miss : session.store.fitting? location chain = none) : location ∉ session.store.keys := by
  intro held
  obtain ⟨entry, got⟩ := OrderedMap.exists_get?_of_mem_keys held
  have fits := charted.fits layered (Nat.le_of_eq bound.symm) along
    (account.charted _ (OrderedMap.mem_of_get? got))
  rw [Cache.fitting?, got, Option.filter_some, if_pos fits] at miss
  cases miss

/-- An import through the cache keeps the accounts, if those further in do. -/
theorem caching_answer_frugal (layered : loader.Layered maxDepth)
    (frugal : resolve.Frugal loader maxDepth) :
    Resolve.Frugal loader maxDepth ((caching loader).answer (compileSource resolve)) := by
  intro location outer chain session along bound charted account
  dsimp only
  rw [caching_answer]
  cases hit : session.store.fitting? location chain with
  | some entry =>
      have inside := OrderedMap.mem_of_get? (Option.filter_eq_some_iff.1 hit).1
      exact ⟨(way_record _ _).trans along, bound, charted.record along (account.charted _ inside),
        account⟩
  | none =>
      have unkept := not_mem_keys_of_miss layered along bound charted account hit
      have new : location ∉ outer := by
        have distinct := (charted.way_short layered).1
        rw [along] at distinct
        exact (List.nodup_cons.1 distinct).1
      cases found : loader location with
      | error failure =>
          have nothing := Loader.not_hasRecipe_of_missing found
          exact ⟨along, bound, charted, account.loadedNothing nothing false⟩
      | ok source =>
          cases read : Recipe.parse source with
          | error failure =>
              have nothing := Loader.not_hasRecipe_of_unread found read
              dsimp only
              rw [compileSource, read]
              exact ⟨along, bound, charted, account.loadedNothing nothing true⟩
          | ok recipe =>
              have before : Outside.Frugal loader maxDepth (location :: outer)
                  ⟨chain, (session.note (.loaded location true)).journal, session.store⟩ :=
                ⟨along, bound, charted, account.loaded unkept new true⟩
              have given : (compileSource resolve location source chain
                  (session.note (.loaded location true))).result = .ok (recipe.build resolve chain
                    (session.note (.loaded location true))).level := by
                rw [compileSource, read]
              exact remember_frugal given (frugal.compileSource layered found read before)

/-- However much room there is, the cache keeps the accounts. -/
theorem caching_frugal (layered : loader.Layered maxDepth) (room : Nat) :
    Resolve.Frugal loader maxDepth ((caching loader).resolveWithin room) := by
  induction room with
  | zero => exact fun _ _ _ _ along bound charted account => ⟨along, bound, charted, account⟩
  | succ room step =>
      intro location outer chain session along bound charted account
      have answered := caching_answer_frugal layered step location outer chain
        (session.note (.entered location chain.locations)) along bound charted
        (account.note fun _ _ => rfl)
      exact ⟨answered.1, answered.2.1, answered.2.2.1, answered.2.2.2.note fun _ _ => rfl⟩

end Resolver

/-! ### Requests -/

/-- A recipe compiled for its own sake imports what it likes. -/
theorem Resolver.compileRecipe_frugal (layered : loader.Layered maxDepth) (recipe : Recipe)
    (account : LoadedOnce loader [] session.journal session.store) :
    LoadedOnce loader []
      (Compiler.compileRecipe ⟨caching loader, maxDepth⟩ recipe session).2.journal
      (Compiler.compileRecipe ⟨caching loader, maxDepth⟩ recipe session).2.store := by
  have before : Outside.Frugal loader maxDepth []
      ⟨.start maxDepth, session.journal, session.store⟩ := ⟨rfl, rfl, .start maxDepth, account⟩
  have after := (caching_frugal layered (maxDepth - 0)).attempts layered
    (recipe.attempts_build _ (.start maxDepth) session)
    (fun _ _ _ first => absurd first (Option.not_mem_none _)) before
  exact after.account

/-- A request keeps the accounts. -/
theorem Request.serve_frugal (request : Request) (layered : loader.Layered request.maxDepth)
    (account : LoadedOnce loader [] session.journal session.store) :
    LoadedOnce loader [] (request.serve (Resolver.caching loader) session).2.journal
      (request.serve (Resolver.caching loader) session).2.store := by
  obtain ⟨task, maxDepth⟩ := request
  cases task with
  | recipe recipe => exact Resolver.compileRecipe_frugal layered recipe account
  | lenient source => exact Resolver.compileRecipe_frugal layered _ account
  | strict source =>
      simp only [Request.serve, Compiler.compile]
      cases Recipe.parse source with
      | error failure => exact account
      | ok recipe => exact Resolver.compileRecipe_frugal layered recipe account
  | location location =>
      simp only [Request.serve, Compiler.compileLocation]
      cases entered : (ImportChain.start maxDepth).enter location with
      | error failure => exact account
      | ok chain =>
          obtain ⟨admitted, rfl⟩ := ImportChain.enter_eq_ok entered
          have charted : ((ImportChain.start maxDepth).entering location).Charted loader :=
            (ImportChain.Charted.start maxDepth).entering fun _ held =>
              (Option.not_mem_none _ held).elim
          have fetched := (Resolver.caching_frugal layered (maxDepth - 0) location [] _ session
            rfl rfl charted account).2.2.2
          unfold Resolver.resolveUnder
          dsimp only
          split
          · exact fetched
          · exact fetched

end Frugal

namespace Bundled

/-- A session that imports through a cache loads each recipe at most once, whatever is compiled in
it, if imports run in no circle and no request has less room for them than the longest path of
imports needs. -/
theorem recipes_loaded_once (loader : Loader) (requests : List Request)
    (acyclic : Acyclic loader.Imports)
    (deep : ∀ request ∈ requests, ∀ path : List String, path.Nodup →
      path.IsChain loader.Imports → path.length ≤ request.maxDepth)
    {location source : String} {recipe : Recipe} (found : loader location = .ok source)
    (read : Recipe.parse source = .ok recipe) :
    timesLoaded ((caching loader).serve requests).2.journal location ≤ 1 := by
  have serves : ∀ (requests : List Request) (session : Session Cache),
      (∀ request ∈ requests, loader.Layered request.maxDepth) →
      LoadedOnce loader [] session.journal session.store →
      LoadedOnce loader [] (serveAll (Resolver.caching loader) requests session).2.journal
        (serveAll (Resolver.caching loader) requests session).2.store := by
    intro requests
    induction requests with
    | nil => exact fun _ _ account => account
    | cons request rest step =>
        intro session layered account
        obtain ⟨here, later⟩ := List.forall_mem_cons.1 layered
        exact step _ later (request.serve_frugal here account)
  have account := serves requests (.start .empty)
    (fun request asked => ⟨acyclic, deep request asked⟩) (.start loader)
  exact account.once location ⟨source, recipe, found, read⟩

/-- Two recipes that import a third one, and a recipe that imports both. There is nothing at one of
the locations imported. -/
def kitchenShelf : OrderedMap String String :=
  .ofList [("menu", "soup @ 'soup'; @ 'sauce'"), ("soup", "@ 'stock'"),
    ("sauce", "s = @ 'stock'; m @ 'mint'"), ("stock", "x = boil()")]

/-- How many imports there are on the longest path from a location. -/
def shelfRank (location : String) : Nat :=
  if location = "menu" then 2 else if location = "soup" ∨ location = "sauce" then 1 else 0

private theorem kitchenShelf_layered : (Loader.ofTable kitchenShelf).Layered 3 := by
  have checked : (kitchenShelf.entries.all fun entry => (Recipe.parse entry.2).toOption.all
      fun recipe => recipe.locations.all fun other =>
        decide (shelfRank other < shelfRank entry.1)) = true := by decide +kernel
  refine .of_rank shelfRank ?_ fun location => ?_
  · rintro location other ⟨source, recipe, found, read, imported⟩
    have falls := List.all_eq_true.1 checked _ (Loader.mem_of_ofTable found)
    dsimp only at falls
    rw [read] at falls
    exact of_decide_eq_true (List.all_eq_true.1 falls other imported)
  · unfold shelfRank
    split
    · decide
    · split <;> decide

/-- Requests that come to the same recipes on several ways and at different depths. -/
def shelfRequests : List Request :=
  [⟨.strict "@ 'sauce'; n @ 'menu'", 3⟩, ⟨.location "menu", 5⟩, ⟨.lenient "a = @ 'stock' !!", 3⟩,
    ⟨.location "mint", 3⟩]

/-- One of the recipes is imported through two others, and it is loaded once. -/
theorem recipes_loaded_once_of_kitchenShelf :
    Acyclic (Loader.ofTable kitchenShelf).Imports ∧
      (∀ request ∈ shelfRequests, ∀ path : List String, path.Nodup →
        path.IsChain (Loader.ofTable kitchenShelf).Imports → path.length ≤ request.maxDepth) ∧
      ∃ recipe, Loader.ofTable kitchenShelf "stock" = .ok "x = boil()" ∧
        Recipe.parse "x = boil()" = .ok recipe ∧
        timesLoaded ((caching (.ofTable kitchenShelf)).serve shelfRequests).2.journal "stock" = 1 := by
  have layered := kitchenShelf_layered
  have deep : ∀ request ∈ shelfRequests, ∀ path : List String, path.Nodup →
      path.IsChain (Loader.ofTable kitchenShelf).Imports → path.length ≤ request.maxDepth := by
    intro request asked path distinct along
    have room : ∀ request ∈ shelfRequests, 3 ≤ request.maxDepth := by decide
    exact Nat.le_trans (layered.short path distinct along) (room request asked)
  have found : Loader.ofTable kitchenShelf "stock" = .ok "x = boil()" := by decide +kernel
  obtain ⟨recipe, read, -⟩ := Recipe.exists_parse "x = boil()" [] (by decide +kernel)
  have loaded : 1 ≤ timesLoaded ((caching (.ofTable kitchenShelf)).serve shelfRequests).2.journal
      "stock" := by decide +kernel
  exact ⟨layered.acyclic, deep, recipe, found, read, Nat.le_antisymm
    (recipes_loaded_once _ _ layered.acyclic deep found read) loaded⟩

end Bundled

end RecipeGraph
