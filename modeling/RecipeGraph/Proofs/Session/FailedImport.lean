/-
# An import that fails changes nothing

An import can fail for what is written, for the chain it is asked for under, or for what is found at
its location. In every case it leaves one warning behind, and nothing else: the level at hand and the
cache are as before, except that the level lists the location among those it imports if the chain
admitted it. The reasons are listed apart from the builder, and it is shown that there are no others:
with none of them an import comes to a graph.
-/

import RecipeGraph.Proofs.Build.Account
import RecipeGraph.Proofs.Session.Appending

namespace RecipeGraph

open Work (fetch_eq)

/-- The loader that a resolver reads from, if it reads at all. -/
def Bundled.loader? : Bundled → Option Loader
  | .plain loader => some loader
  | .caching loader => some loader
  | .noImports => none

/-- What a resolver has at hand for a location on a chain that ends with it. -/
def Bundled.atHand? (bundled : Bundled) (cache : Cache) (location : String) (chain : ImportChain) :
    Option CacheEntry :=
  match bundled with
  | .caching _ => cache.fitting? location chain
  | _ => none

/-- Why an import fails that a resolver is asked for. -/
inductive Bundled.Refuses (bundled : Bundled) (cache : Cache) (location : String)
    (chain : ImportChain) : ImportError → Prop
  /-- There is no text at the location, or it cannot be read. -/
  | unavailable {loader : Loader} {failure : ImportError} (reads : bundled.loader? = some loader)
      (unkept : bundled.atHand? cache location chain = none)
      (missing : loader location = .error failure) : Refuses bundled cache location chain failure
  /-- What is found at the location is no recipe. -/
  | malformed {loader : Loader} {source : String} {failure : ParseError}
      (reads : bundled.loader? = some loader)
      (unkept : bundled.atHand? cache location chain = none)
      (found : loader location = .ok source) (unread : Recipe.parse source = .error failure) :
      Refuses bundled cache location chain (.malformed location failure)
  /-- Imports are not answered at all. -/
  | unsupported (mute : bundled.loader? = none) :
      Refuses bundled cache location chain (.unsupported location)

/-- Why nothing comes of an import that is written in a recipe: it has no location, or there is a
failure. -/
inductive Bundled.Fails (bundled : Bundled) (chain : ImportChain) (cache : Cache) :
    (location : String) → Option ImportError → Prop
  | omitted : Fails bundled chain cache "" none
  /-- The location is being imported. -/
  | cycle {location : String} (written : location ≠ "") (underway : location ∈ chain.locations) :
      Fails bundled chain cache location (some (.cycle (chain.locations ++ [location])))
  /-- As many imports are in progress as there may be. -/
  | tooDeep {location : String} (written : location ≠ "") (new : location ∉ chain.locations)
      (full : chain.maxDepth ≤ chain.depth) :
      Fails bundled chain cache location (some (.depthExceeded location chain.maxDepth))
  | refused {location : String} {failure : ImportError} (written : location ≠ "")
      (admitted : chain.mayEnter location = .ok ())
      (refuses : bundled.Refuses cache location (chain.entering location) failure) :
      Fails bundled chain cache location (some failure)

/-- The code of the warning about an import that fails: one for circles, one for imports that are
nested too deeply, and one for everything else. -/
def Warning.failureCode : Option ImportError → ErrorCode
  | some (.cycle _) => .importCycle
  | some (.depthExceeded _ _) => .importDepth
  | _ => .importFailure

/-- A statement imports something, by itself or on the right of an assignment. -/
inductive Statement.Asks : Statement → Import → Prop
  | alone (source : Import) : Asks (.fetched source) source
  | assigned (targets : List Target) (source : Spanned Import) :
      Asks (.assignment targets (.fetched source)) source.value

/-! ### What resolvers answer -/

/-- Where one more import fits on a chain, there is room for it. -/
theorem Resolver.resolveUnder_of_lt {σ : Type} (resolver : Resolver σ) {chain : ImportChain}
    (below : chain.depth < chain.maxDepth) :
    ∃ room, resolver.resolveUnder chain = resolver.resolveWithin (room + 1) := by
  obtain ⟨room, enough⟩ := Nat.exists_eq_add_of_lt below
  refine ⟨room, ?_⟩
  rw [resolveUnder, enough]
  congr 1
  omega

namespace Bundled

variable {bundled : Bundled} {location source : String} {chain : ImportChain} {loader : Loader}
  {failure failure' : ImportError} {cache : Cache} {session : Session Cache}

theorem answer_mute (mute : bundled.loader? = none) (compile : CompileSource Cache)
    (session : Session Cache) :
    bundled.resolver.answer compile location chain session =
      ⟨.error (.unsupported location), chain, session⟩ := by
  cases bundled with
  | plain loader | caching loader => cases mute
  | noImports => rfl

theorem answer_atHand {entry : CacheEntry} (session : Session Cache)
    (held : bundled.atHand? session.store location chain = some entry)
    (compile : CompileSource Cache) :
    ∃ graph, (bundled.resolver.answer compile location chain session).result = .ok graph := by
  cases bundled with
  | plain loader | noImports => cases held
  | caching loader =>
      have hit : session.store.fitting? location chain = some entry := held
      exact ⟨_, by rw [resolver, Resolver.caching_answer, hit]⟩

theorem answer_missing (session : Session Cache) (reads : bundled.loader? = some loader)
    (unkept : bundled.atHand? session.store location chain = none)
    (missing : loader location = .error failure) (compile : CompileSource Cache) :
    bundled.resolver.answer compile location chain session =
      ⟨.error failure, chain, session.note (.loaded location false)⟩ := by
  cases bundled with
  | noImports => cases reads
  | plain own =>
      obtain rfl := Option.some.inj reads
      rw [resolver, Resolver.plain_answer, missing]
  | caching own =>
      obtain rfl := Option.some.inj reads
      have miss : session.store.fitting? location chain = none := unkept
      rw [resolver, Resolver.caching_answer, miss, missing]

/-- What is found is compiled, and a cache changes nothing about a failure. -/
theorem result_answer_found (session : Session Cache) (reads : bundled.loader? = some loader)
    (unkept : bundled.atHand? session.store location chain = none)
    (found : loader location = .ok source) (compile : CompileSource Cache) :
    let compiled := compile location source chain (session.note (.loaded location true))
    (bundled.resolver.answer compile location chain session).result = compiled.result ∧
      (compiled.result.isOk = false →
        bundled.resolver.answer compile location chain session = compiled) := by
  cases bundled with
  | noImports => cases reads
  | plain own =>
      obtain rfl := Option.some.inj reads
      rw [resolver, Resolver.plain_answer, found]
      exact ⟨rfl, fun _ => rfl⟩
  | caching own =>
      obtain rfl := Option.some.inj reads
      have miss : session.store.fitting? location chain = none := unkept
      rw [resolver, Resolver.caching_answer, miss, found]
      dsimp only
      unfold Resolver.remember
      split
      · exact ⟨rfl, fun _ => rfl⟩
      · next given =>
          refine ⟨?_, fun failed => ?_⟩
          · split <;> rfl
          · rw [given] at failed
            cases failed

/-- A resolver that has a reason to refuse a location does so. It keeps and takes nothing. -/
theorem Refuses.resolveWithin (refuses : bundled.Refuses session.store location chain failure)
    (room : Nat) :
    let fetched := bundled.resolver.resolveWithin (room + 1) location chain session
    fetched.result = .error failure ∧ fetched.session.store = session.store ∧
      fetched.session.supply = session.supply := by
  intro fetched
  let noted := session.note (.entered location chain.locations)
  let compile := Resolver.compileSource (bundled.resolver.resolveWithin room)
  let answer := bundled.resolver.answer compile location chain noted
  show answer.result = .error failure ∧ answer.session.store = session.store ∧
    answer.session.supply = session.supply
  cases refuses with
  | unavailable reads unkept missing =>
      have same : answer = _ := answer_missing noted reads unkept missing compile
      rw [same]
      exact ⟨rfl, rfl, rfl⟩
  | @malformed loader source failure reads unkept found unread =>
      have compiled : compile location source chain (noted.note (.loaded location true)) =
          ⟨.error (.malformed location failure), chain, noted.note (.loaded location true)⟩ := by
        show Resolver.compileSource _ _ _ _ _ = _
        rw [Resolver.compileSource, unread]
      have given := result_answer_found noted reads unkept found compile
      rw [compiled] at given
      have same : answer = _ := given.2 rfl
      rw [same]
      exact ⟨rfl, rfl, rfl⟩
  | unsupported mute =>
      have same : answer = _ := answer_mute mute compile noted
      rw [same]
      exact ⟨rfl, rfl, rfl⟩

/-- There are no other reasons: without one, a resolver comes to a graph. -/
theorem exists_graph (bundled : Bundled) (session : Session Cache)
    (willing : ∀ failure, ¬ bundled.Refuses session.store location chain failure) (room : Nat) :
    ∃ graph,
      (bundled.resolver.resolveWithin (room + 1) location chain session).result = .ok graph := by
  let noted := session.note (.entered location chain.locations)
  let compile := Resolver.compileSource (bundled.resolver.resolveWithin room)
  show ∃ graph, (bundled.resolver.answer compile location chain noted).result = .ok graph
  cases reads : bundled.loader? with
  | none => exact (willing _ (.unsupported reads)).elim
  | some loader =>
      cases held : bundled.atHand? session.store location chain with
      | some entry => exact answer_atHand noted held compile
      | none =>
          cases found : loader location with
          | error failure => exact (willing _ (.unavailable reads held found)).elim
          | ok source =>
              cases read : Recipe.parse source with
              | error failure => exact (willing _ (.malformed reads held found read)).elim
              | ok recipe =>
                  rw [(result_answer_found noted reads held found compile).1]
                  show ∃ graph, (Resolver.compileSource _ _ _ _ _).result = .ok graph
                  rw [Resolver.compileSource, read]
                  exact ⟨_, rfl⟩

end Bundled

/-! ### What is left behind -/

/-- What an import that fails makes of the work at hand: a warning about the location, and at most an
entry in the list of the locations that the level imports. -/
structure Work.OnlyWarns (work after : Work Cache) (location : Spanned String)
    (reason : Option ImportError) : Prop where
  level : after.level =
    if location.value ≠ "" ∧ (work.chain.mayEnter location.value).isOk then
      work.level.addImport location.value
    else work.level
  found : ∃ warning : Diagnostic, warning.Warns (Warning.failureCode reason) location.span ∧
    after.found.entries = work.found.entries ++ [warning]
  store : after.session.store = work.session.store
  supply : after.session.supply = work.session.supply

/-- A variable keeps what it stands for. -/
theorem Work.OnlyWarns.variableIds {work after : Work Cache} {location : Spanned String}
    {reason : Option ImportError} (only : work.OnlyWarns after location reason) :
    after.level.variableIds = work.level.variableIds := by
  rw [only.level]
  split
  · rfl
  · rfl

theorem Warning.warns_importFailed (failure : ImportError) (span : Span) :
    (Warning.importFailed failure span).diagnostic.Warns (failureCode (some failure)) span := by
  cases failure with
  | cycle | depthExceeded | notFound | unreadable | malformed | unsupported => exact ⟨rfl, rfl, rfl⟩

namespace Work

variable {bundled : Bundled} {work : Work Cache} {source : Import} {resolve : Resolve Cache}
  {statement : Statement} {failure : ImportError}

/-- A statement that asks for an import comes to what the attempt comes to, if this gives no graph. -/
theorem place_of_none (asks : statement.Asks source)
    (failed : (work.fetchImport resolve source).1 = none) :
    place resolve statement work = (work.fetchImport resolve source).2 := by
  cases asks with
  | alone =>
      rw [place, placeImport]
      generalize work.fetchImport resolve source = fetched at failed
      obtain ⟨imported, after⟩ := fetched
      obtain rfl : imported = none := failed
      rfl
  | assigned targets source =>
      rw [place, placeNestedImport]
      generalize work.fetchImport resolve source.value = fetched at failed
      obtain ⟨imported, after⟩ := fetched
      obtain rfl : imported = none := failed
      rfl

/-- An import with a location is attempted, and a failure is reported. -/
theorem fetchImport_of_written (written : source.location.value ≠ "") :
    work.fetchImport resolve source =
      match (work.fetch resolve source.location.value).1 with
      | .ok imported => (some imported, (work.fetch resolve source.location.value).2)
      | .error failure =>
        (none, (work.fetch resolve source.location.value).2.report
          (.importFailed failure source.location.span)) := by
  rw [fetchImport, if_neg (by simpa using written)]
  cases work.fetch resolve source.location.value with
  | mk result after => cases result <;> rfl

/-- Where the attempt at an import fails and takes nothing, a warning is all that is left of it. -/
theorem onlyWarns_of_attempt (written : source.location.value ≠ "")
    (failed : (resolve.attempt source.location.value work.chain work.session).result =
      .error failure)
    (store : (resolve.attempt source.location.value work.chain work.session).session.store =
      work.session.store)
    (supply : (resolve.attempt source.location.value work.chain work.session).session.supply =
      work.session.supply) :
    (work.fetchImport resolve source).1 = none ∧
      work.OnlyWarns (work.fetchImport resolve source).2 source.location (some failure) := by
  rw [fetchImport_of_written written, fetch_eq]
  dsimp only
  rw [failed]
  refine ⟨rfl, ?_, ⟨_, Warning.warns_importFailed failure source.location.span, rfl⟩,
    (store_report _ _).trans store, (supply_report _ _).trans supply⟩
  show (if _ then _ else _) = _
  simp only [ne_eq, written, not_false_eq_true, true_and]

/-- With a reason to fail, an import does fail and only warns. -/
theorem onlyWarns_of_fails {reason : Option ImportError}
    (fails : bundled.Fails work.chain work.session.store source.location.value reason) :
    let fetched := work.fetchImport (bundled.resolver.resolveUnder work.chain) source
    fetched.1 = none ∧ work.OnlyWarns fetched.2 source.location reason := by
  obtain ⟨⟨location, span⟩, name⟩ := source
  cases fails with
  | omitted =>
      exact ⟨rfl, rfl, ⟨_, ⟨rfl, rfl, rfl⟩, rfl⟩, store_report _ work, supply_report _ work⟩
  | cycle written underway =>
      have refused : work.chain.mayEnter location =
          .error (.cycle (work.chain.locations ++ [location])) := by
        rw [ImportChain.mayEnter, if_pos ((work.chain.contains_iff location).2 underway)]
      apply onlyWarns_of_attempt written
      all_goals rw [Resolve.attempt_of_refused refused]
  | tooDeep written new full =>
      have refused : work.chain.mayEnter location =
          .error (.depthExceeded location work.chain.maxDepth) := by
        rw [ImportChain.mayEnter, if_neg (mt (work.chain.contains_iff location).1 new), if_pos full]
      apply onlyWarns_of_attempt written
      all_goals rw [Resolve.attempt_of_refused refused]
  | refused written admitted refuses =>
      obtain ⟨-, below⟩ := ImportChain.mayEnter_eq_ok_iff.1 admitted
      obtain ⟨room, given⟩ := bundled.resolver.resolveUnder_of_lt below
      obtain ⟨failed, store, supply⟩ := refuses.resolveWithin room
      apply onlyWarns_of_attempt written
      all_goals rw [given, Resolve.attempt_of_admitted admitted]
      · exact failed
      · exact store
      · exact supply

/-- Without a reason to fail, an import comes to a graph. -/
theorem fetchImport_ne_none
    (willing : ∀ reason,
      ¬ bundled.Fails work.chain work.session.store source.location.value reason) :
    (work.fetchImport (bundled.resolver.resolveUnder work.chain) source).1 ≠ none := by
  have written : source.location.value ≠ "" := fun omitted => willing none (omitted ▸ .omitted)
  have new : source.location.value ∉ work.chain.locations :=
    fun underway => willing _ (.cycle written underway)
  have below : work.chain.depth < work.chain.maxDepth :=
    Nat.lt_of_not_le fun full => willing _ (.tooDeep written new full)
  have admitted : work.chain.mayEnter source.location.value = .ok () :=
    ImportChain.mayEnter_eq_ok_iff.2
      ⟨Bool.eq_false_iff.2 (mt (work.chain.contains_iff _).1 new), below⟩
  obtain ⟨room, given⟩ := bundled.resolver.resolveUnder_of_lt below
  obtain ⟨graph, delivered⟩ := bundled.exists_graph work.session
    (fun failure refuses => willing (some failure) (.refused written admitted refuses)) room
  rw [fetchImport_of_written written, fetch_eq, given]
  dsimp only
  rw [Resolve.attempt_of_admitted admitted]
  dsimp only
  rw [delivered]
  exact Option.some_ne_none graph

end Work

namespace Bundled

/-- An import that fails changes nothing: by itself or on the right of an assignment, whatever the
level and the cache, and for whatever reason. One warning is given, and the level lists the location
if the chain admitted it. The reasons are all there are. -/
theorem failed_import_only_warns (bundled : Bundled) (work : Work Cache) (source : Import) :
    let resolve := bundled.resolver.resolveUnder work.chain
    let Fails := bundled.Fails work.chain work.session.store source.location.value
    ((work.fetchImport resolve source).1 = none ↔ ∃ reason, Fails reason) ∧
      ∀ statement : Statement, statement.Asks source → ∀ reason, Fails reason →
        work.OnlyWarns (Work.place resolve statement work) source.location reason := by
  refine ⟨⟨fun failed => ?_, ?_⟩, ?_⟩
  · by_contra unfailing
    exact Work.fetchImport_ne_none (not_exists.1 unfailing) failed
  · rintro ⟨reason, fails⟩
    exact (Work.onlyWarns_of_fails fails).1
  · intro statement asks reason fails
    obtain ⟨failed, only⟩ := Work.onlyWarns_of_fails fails
    rw [Work.place_of_none asks failed]
    exact only

/-- A cache in front of a text that is no recipe. -/
def cellar : Bundled := .caching (.ofTable (.ofList [("cellar", "= salt")]))

/-- A level in which a variable is bound, while another recipe is being imported. -/
def stocked : Work Cache :=
  cellar.buildUnder ((ImportChain.start 4).entering "table")
    (Recipe.parseLenient "salt{a: 1} = mine()").1.statements (.start .empty)

private theorem cellar_unread : (Recipe.parse "= salt").isOk = false := by
  decide +kernel

private theorem stocked_facts :
    stocked.level.variableIds.contains "salt" = true ∧
      (stocked.chain.mayEnter "cellar").isOk = true ∧
      (cellar.atHand? stocked.session.store "cellar"
        (stocked.chain.entering "cellar")).isNone = true := by
  decide +kernel

private theorem cellar_fails :
    ∃ failure, cellar.Fails stocked.chain stocked.session.store "cellar"
      (some (.malformed "cellar" failure)) := by
  obtain ⟨-, admits, unkept⟩ := stocked_facts
  have admitted : stocked.chain.mayEnter "cellar" = .ok () := by
    generalize stocked.chain.mayEnter "cellar" = answer at admits
    cases answer with
    | error failure => cases admits
    | ok => rfl
  have found : Loader.ofTable (.ofList [("cellar", "= salt")]) "cellar" = .ok "= salt" := by
    decide
  cases unread : Recipe.parse "= salt" with
  | ok recipe =>
      have failed := cellar_unread
      rw [unread] at failed
      cases failed
  | error failure =>
      exact ⟨failure, .refused (by decide) admitted
        (.malformed rfl (Option.isNone_iff_eq_none.1 unkept) found unread)⟩

/-- The variable on the left of an import that fails keeps what it stands for. -/
theorem failed_import_only_warns_of_cellar :
    let location : Spanned String := ⟨"cellar", ⟨7, 15⟩⟩
    let statement : Statement :=
      .assignment [⟨⟨"salt", ⟨0, 4⟩⟩, none⟩] (.fetched ⟨⟨location, none⟩, ⟨7, 15⟩⟩)
    let after := Work.place (cellar.resolver.resolveUnder stocked.chain) statement stocked
    (∃ failure, stocked.OnlyWarns after location (some (.malformed "cellar" failure))) ∧
      stocked.level.variableIds.contains "salt" = true ∧
        after.level.variableIds = stocked.level.variableIds := by
  intro location statement after
  obtain ⟨failure, fails⟩ := cellar_fails
  have only : stocked.OnlyWarns after location (some (.malformed "cellar" failure)) :=
    (failed_import_only_warns cellar stocked ⟨location, none⟩).2 statement (.assigned _ _) _ fails
  clear_value after
  exact ⟨⟨failure, only⟩, stocked_facts.1, only.variableIds⟩

end Bundled

end RecipeGraph
