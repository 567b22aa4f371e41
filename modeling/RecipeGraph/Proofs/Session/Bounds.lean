/-
# Resolution stays within its bounds

However deep imports may be nested, resolution over a table of texts ends, since a location cannot
be entered while it is being imported. That it ends is said here of the calls that a resolver makes
to itself. They are unrolled as many levels deep as the bound on the depth and the size of the table
ask for, and what lies beyond is replaced by anything at all; and a call with a chain that is not as
chains have to be is replaced, too. As none of this can be noticed, no such call is ever made.
-/

import RecipeGraph.Proofs.Build.Agreement
import RecipeGraph.Proofs.Import.Handed
import RecipeGraph.Proofs.Session.Exact

namespace RecipeGraph

open ImportChain (Passable Reaching Handed reaching_entering)

variable {σ : Type}

/-! ### What is noted -/

/-- What a journal may say of the locations that were entered: each stands at the end of its chain
and nowhere else on it, and the chain is within the bounds. -/
def JournalEntry.Bounded (maxDepth entries : Nat) : JournalEntry → Prop
  | .entered location chain => chain.getLast? = some location ∧ chain.Nodup ∧
      chain.length ≤ maxDepth ∧ chain.length ≤ entries + 1
  | _ => True

/-- A journal goes on with entries that keep to the bounds. -/
def JournalGoesOn (maxDepth entries : Nat) (before after : List JournalEntry) : Prop :=
  ∃ notes, after = before ++ notes ∧ ∀ entry ∈ notes, entry.Bounded maxDepth entries

namespace JournalGoesOn

variable {maxDepth entries : Nat} {before middle after : List JournalEntry}

theorem refl (journal : List JournalEntry) : JournalGoesOn maxDepth entries journal journal :=
  ⟨[], (List.append_nil _).symm, nofun⟩

theorem trans (one : JournalGoesOn maxDepth entries before middle)
    (two : JournalGoesOn maxDepth entries middle after) :
    JournalGoesOn maxDepth entries before after := by
  obtain ⟨notes, rfl, bounded⟩ := one
  obtain ⟨notes', rfl, bounded'⟩ := two
  exact ⟨notes ++ notes', List.append_assoc .., List.forall_mem_append.2 ⟨bounded, bounded'⟩⟩

theorem note {entry : JournalEntry} (goesOn : JournalGoesOn maxDepth entries before after)
    (bounded : entry.Bounded maxDepth entries) :
    JournalGoesOn maxDepth entries before (after ++ [entry]) :=
  goesOn.trans ⟨[entry], rfl, List.forall_mem_singleton.2 bounded⟩

end JournalGoesOn

theorem ImportChain.Handed.bounded {maxDepth entries : Nat} {location : String}
    {chain : ImportChain} (handed : chain.Handed maxDepth entries location) :
    (JournalEntry.entered location chain.locations).Bounded maxDepth entries := by
  refine ⟨handed.ends, handed.distinct, ?_, ?_⟩
  · rw [chain.length_locations]
    exact handed.shallow
  · rw [chain.length_locations]
    exact handed.short

/-! ### Imports leave the chain where it was -/

/-- Where a compilation stands in between: on the way it has come, with a journal that has kept to
the bounds. -/
structure Outside.Along (maxDepth entries : Nat) (way : List String) (journal : List JournalEntry)
    (outside : Outside σ) : Prop where
  way : outside.chain.way = way
  bound : outside.chain.maxDepth = maxDepth
  journal : JournalGoesOn maxDepth entries journal outside.journal

/-- An import comes back to where it was asked for. -/
def Fetched.Returns (maxDepth entries : Nat) (chain : ImportChain) (session : Session σ)
    (fetched : Fetched σ) : Prop :=
  fetched.outside.Along maxDepth entries chain.way session.journal

/-- A way to resolve comes back from every location that a chain has come to by a passable way. -/
def Resolve.Returns (table : OrderedMap String String) (maxDepth : Nat) (resolve : Resolve σ) :
    Prop :=
  ∀ location outer chain session, chain.Reaching table maxDepth location outer →
    (resolve location chain session).Returns maxDepth table.size chain session

section Returns

variable {table : OrderedMap String String} {maxDepth entries : Nat} {resolve : Resolve σ}
  {way : List String} {journal : List JournalEntry} {chain : ImportChain} {session : Session σ}

/-- A failure that changes nothing but the journal comes back. -/
theorem Fetched.Returns.failed (bound : chain.maxDepth = maxDepth) (failure : ImportError) :
    Fetched.Returns maxDepth entries chain session ⟨.error failure, chain, session⟩ :=
  ⟨rfl, bound, .refl _⟩

theorem ImportChain.way_recordCut (chain : ImportChain) : chain.recordCut.way = chain.way := by
  simp [way, recordCut]

/-- Attempts to import stay along a passable way. -/
theorem Resolve.Returns.preserves (returns : resolve.Returns table maxDepth)
    (passable : Passable table way) :
    Work.Preserves resolve (Outside.Along maxDepth table.size way journal) := by
  intro location chain session along
  cases admitted : chain.mayEnter location with
  | error failure =>
      rw [Resolve.attempt_of_refused admitted]
      exact ⟨chain.way_recordCut.trans along.way, along.bound, along.journal⟩
  | ok =>
      have reaching := reaching_entering along.way along.bound passable admitted
      have back := returns location way _ session reaching
      rw [Resolve.attempt_of_admitted admitted]
      refine ⟨?_, back.bound, along.journal.trans back.journal⟩
      have left := congrArg List.tail (back.way.trans reaching.way)
      rw [ImportChain.way, ← List.map_tail] at left
      exact left

/-- Building a recipe stays along a passable way. -/
theorem Resolve.Returns.build (returns : resolve.Returns table maxDepth) (recipe : Recipe)
    (chain : ImportChain) (session : Session σ) (passable : Passable table chain.way)
    (bound : chain.maxDepth = maxDepth) :
    (recipe.build resolve chain session).outside.Along maxDepth table.size chain.way
      session.journal :=
  (returns.preserves passable).attempts (recipe.attempts_build resolve chain session)
    ⟨rfl, bound, .refl _⟩

/-- Two ways to resolve agree along a passable way if they come to the same for every location that
may be entered from it. -/
theorem Resolve.Returns.agreesWhile {resolve' : Resolve σ} (returns : resolve.Returns table maxDepth)
    (passable : Passable table way) (journal : List JournalEntry)
    (same : ∀ location chain session, chain.Reaching table maxDepth location way →
      resolve location chain session = resolve' location chain session) :
    resolve.AgreesWhile (Outside.Along maxDepth table.size way journal) resolve' where
  preserves := returns.preserves passable
  agrees location chain session along := by
    cases admitted : chain.mayEnter location with
    | error failure =>
        rw [Resolve.attempt_of_refused admitted, Resolve.attempt_of_refused admitted]
    | ok =>
        have reaching := reaching_entering along.way along.bound passable admitted
        rw [Resolve.attempt_of_admitted admitted, Resolve.attempt_of_admitted admitted,
          same location _ session reaching]

theorem Resolve.Returns.compileSource (returns : resolve.Returns table maxDepth)
    {location source : String} {outer : List String}
    (reaching : chain.Reaching table maxDepth location outer) (known : location ∈ table.keys) :
    (Resolver.compileSource resolve location source chain session).Returns maxDepth table.size chain
      session := by
  unfold Resolver.compileSource
  split
  · exact .failed reaching.bound _
  · next recipe _ =>
      exact returns.build recipe chain session (reaching.way ▸ reaching.goesOn known) reaching.bound

/-- What comes back does so with an entry about the location in the journal, too. -/
theorem Fetched.Returns.journaled {location : String}
    (handed : chain.Handed maxDepth entries location)
    (returns : ∀ session, (resolve location chain session).Returns maxDepth entries chain session) :
    (Resolver.journaled resolve location chain session).Returns maxDepth entries chain session := by
  have back := returns (session.note (.entered location chain.locations))
  have entered : JournalGoesOn maxDepth entries session.journal
      (session.note (.entered location chain.locations)).journal :=
    (JournalGoesOn.refl _).note handed.bounded
  exact ⟨back.way, back.bound, (entered.trans back.journal).note trivial⟩

end Returns

/-- What is noted of a text that was asked for keeps to all bounds. -/
theorem Session.loaded_goesOn (session : Session σ) (maxDepth entries : Nat) (location : String)
    (found : Bool) : JournalGoesOn maxDepth entries session.journal
      (session.note (.loaded location found)).journal :=
  (JournalGoesOn.refl _).note trivial

/-! ### Resolvers that read from a loader -/

/-- A resolver compiles nothing but texts that a loader finds at the location it was asked for, and
apart from that it comes back to where it was asked. -/
structure Resolver.Reads (loader : Loader) (resolver : Resolver σ) : Prop where
  agrees : ∀ {compile compile' : CompileSource σ} {location chain} (session),
    (∀ source session, loader location = .ok source →
      compile location source chain session = compile' location source chain session) →
    resolver.answer compile location chain session = resolver.answer compile' location chain session
  returns : ∀ {maxDepth entries : Nat} {compile : CompileSource σ} {location chain} (session),
    chain.maxDepth = maxDepth →
    (∀ source session, loader location = .ok source →
      (compile location source chain session).Returns maxDepth entries chain session) →
    (resolver.answer compile location chain session).Returns maxDepth entries chain session

namespace Resolver

variable {loader : Loader}

theorem plain_reads (loader : Loader) : (plain loader : Resolver σ).Reads loader where
  agrees {compile compile' location chain} session same := by
    rw [plain_answer, plain_answer]
    cases found : loader location with
    | error failure => rfl
    | ok source => exact same source _ found
  returns {maxDepth entries compile location chain} session bound returns := by
    have loaded := session.loaded_goesOn maxDepth entries location
    rw [plain_answer]
    cases found : loader location with
    | error failure => exact ⟨rfl, bound, loaded false⟩
    | ok source =>
        have back := returns source (session.note (.loaded location true)) found
        exact ⟨back.way, back.bound, (loaded true).trans back.journal⟩

/-- Keeping what was compiled changes nothing outside but what the resolver keeps. -/
theorem remember_along {maxDepth entries : Nat} {way : List String} {journal : List JournalEntry}
    {fetched : Fetched Cache} (along : fetched.outside.Along maxDepth entries way journal)
    (location : String) : (remember location fetched).outside.Along maxDepth entries way journal := by
  unfold remember
  split
  · exact along
  · split
    · exact along
    · exact ⟨along.way, along.bound, along.journal⟩

theorem caching_reads (loader : Loader) : (caching loader).Reads loader where
  agrees {compile compile' location chain} session same := by
    rw [caching_answer, caching_answer]
    cases session.store.fitting? location chain with
    | some entry => rfl
    | none =>
        cases found : loader location with
        | error failure => rfl
        | ok source => exact congrArg (remember location) (same source _ found)
  returns {maxDepth entries compile location chain} session bound returns := by
    have loaded := session.loaded_goesOn maxDepth entries location
    rw [caching_answer]
    cases session.store.fitting? location chain with
    | some entry => exact ⟨chain.way_record entry.reach, bound, .refl _⟩
    | none =>
        cases found : loader location with
        | error failure => exact ⟨rfl, bound, loaded false⟩
        | ok source =>
            have back := returns source (session.note (.loaded location true)) found
            exact remember_along ⟨back.way, back.bound, (loaded true).trans back.journal⟩ location

/-- If a table has a text at a location, the location is one of its keys. -/
theorem known_of_found {table : OrderedMap String String} {location source : String}
    (found : Loader.ofTable table location = .ok source) : location ∈ table.keys :=
  List.mem_map_of_mem (Loader.mem_of_ofTable found)

/-- Every call of a resolver over a table comes back to where it was made. -/
theorem Reads.resolveWithin_returns {table : OrderedMap String String} {resolver : Resolver σ}
    (reads : resolver.Reads (.ofTable table)) (maxDepth room : Nat) :
    (resolver.resolveWithin room).Returns table maxDepth := by
  induction room with
  | zero => exact fun location outer chain session reaching => .failed reaching.bound _
  | succ room step =>
      intro location outer chain session reaching
      refine .journaled reaching.handed fun session => reads.returns session reaching.bound ?_
      exact fun source session found => step.compileSource reaching (known_of_found found)

/-! ### Unrolling the calls -/

/-- Answers imports as a resolver does, as many levels deep as asked for and as long as the location
and its chain are allowed; beyond that, answers come from elsewhere. -/
def answerWithin (resolver : Resolver σ) (allowed : String → ImportChain → Bool)
    (beyond : Resolve σ) : (levels : Nat) → Resolve σ
  | 0 => beyond
  | levels + 1 => fun location chain session =>
    if allowed location chain then
      resolver.answer (compileSource (journaled (resolver.answerWithin allowed beyond levels)))
        location chain session
    else
      beyond location chain session

/-- The resolver whose calls to itself are unrolled. -/
def unrolled (resolver : Resolver σ) (allowed : String → ImportChain → Bool) (beyond : Resolve σ)
    (levels : Nat) : Resolver σ where
  answer _ := resolver.answerWithin allowed beyond levels

section Unrolled

variable {table : OrderedMap String String} {resolver : Resolver σ} {maxDepth : Nat}
  {allowed : String → ImportChain → Bool}

/-- Where levels are left for all the imports that there is room for, or for all the texts that
there are, unrolling is not noticed. -/
theorem Reads.resolveWithin_unrolled (reads : resolver.Reads (.ofTable table))
    (allows : ∀ location chain, Handed maxDepth table.size location chain →
      allowed location chain = true) (beyond : Resolve σ) {levels room : Nat} {location : String}
    {outer : List String} {chain : ImportChain} (session : Session σ)
    (reaching : chain.Reaching table maxDepth location outer)
    (left : room + chain.depth = maxDepth + 1)
    (enough : min maxDepth (table.size + 1) < levels + chain.depth) :
    resolver.resolveWithin room location chain session =
      journaled (resolver.answerWithin allowed beyond levels) location chain session := by
  induction levels generalizing room location outer chain session with
  | zero =>
      have shallow := reaching.shallow
      have short := reaching.handed.short
      omega
  | succ levels step =>
      obtain ⟨room, rfl⟩ : ∃ less, room = less + 1 :=
        Nat.exists_eq_succ_of_ne_zero (by have := reaching.shallow; omega)
      have compiles : ∀ source session, Loader.ofTable table location = .ok source →
          compileSource (resolver.resolveWithin room) location source chain session =
            compileSource (journaled (resolver.answerWithin allowed beyond levels)) location source
              chain session := by
        intro source session found
        have passable := reaching.goesOn (known_of_found found)
        have further : ∀ other inner session, inner.Reaching table maxDepth other (location :: outer) →
            resolver.resolveWithin room other inner session =
              journaled (resolver.answerWithin allowed beyond levels) other inner session := by
          intro other inner session deeper
          have depth := deeper.depth_eq
          rw [List.length_cons, ← reaching.depth_eq] at depth
          exact step session deeper (by omega) (by omega)
        have same := (reads.resolveWithin_returns maxDepth room).agreesWhile passable session.journal
          further
        unfold compileSource
        split
        · rfl
        · next recipe _ =>
            rw [same.build recipe chain session ⟨reaching.way, reaching.bound, .refl _⟩]
      have answers : ∀ session, resolver.answer (compileSource (resolver.resolveWithin room)) location
          chain session = resolver.answerWithin allowed beyond (levels + 1) location chain session :=
        fun session => (reads.agrees session compiles).trans
          (if_pos (allows location chain reaching.handed)).symm
      show journaled _ location chain session = _
      unfold journaled
      rw [answers]

/-- Nor is it noticed by what is compiled for its own sake. -/
theorem Reads.resolveUnder_unrolled (reads : resolver.Reads (.ofTable table))
    (allows : ∀ location chain, Handed maxDepth table.size location chain →
      allowed location chain = true) (beyond : Resolve σ) {levels : Nat}
    (enough : min maxDepth (table.size + 1) ≤ levels) {location : String} {chain : ImportChain}
    (session : Session σ) (reaching : chain.Reaching table maxDepth location []) :
    resolver.resolveUnder (.start maxDepth) location chain session =
      (resolver.unrolled allowed beyond levels).resolveUnder (.start maxDepth) location chain
        session := by
  have one : chain.depth = 1 := reaching.depth_eq
  have shallow := reaching.shallow
  obtain ⟨room, rfl⟩ : ∃ less, maxDepth = less + 1 :=
    Nat.exists_eq_succ_of_ne_zero (by omega)
  exact reads.resolveWithin_unrolled allows beyond session reaching (by rw [one]; rfl) (by omega)

end Unrolled

end Resolver

/-! ### Requests -/

section Serving

variable {table : OrderedMap String String} {resolver : Resolver σ} {maxDepth : Nat}
  {allowed : String → ImportChain → Bool}

theorem ImportChain.reaching_of_enter {location : String} {chain : ImportChain}
    (entered : (ImportChain.start maxDepth).enter location = .ok chain) :
    chain.Reaching table maxDepth location [] := by
  obtain ⟨admitted, rfl⟩ := enter_eq_ok entered
  exact reaching_entering rfl rfl .nothing admitted

theorem Resolver.Reads.compileRecipe_unrolled (reads : resolver.Reads (.ofTable table))
    (allows : ∀ location chain, Handed maxDepth table.size location chain →
      allowed location chain = true) (beyond : Resolve σ) {levels : Nat}
    (enough : min maxDepth (table.size + 1) ≤ levels) (recipe : Recipe) (session : Session σ) :
    Compiler.compileRecipe ⟨resolver.unrolled allowed beyond levels, maxDepth⟩ recipe session =
      Compiler.compileRecipe ⟨resolver, maxDepth⟩ recipe session := by
  have same := (reads.resolveWithin_returns maxDepth (maxDepth - 0)).agreesWhile .nothing
    session.journal fun location chain session reaching =>
      reads.resolveUnder_unrolled allows beyond enough session reaching
  have built := same.build recipe (.start maxDepth) session ⟨rfl, rfl, .refl _⟩
  exact congrArg (fun work : Work σ => (Compilation.mk work.level work.found.entries, work.session))
    built.symm

theorem Resolver.Reads.compileLocation_unrolled (reads : resolver.Reads (.ofTable table))
    (allows : ∀ location chain, Handed maxDepth table.size location chain →
      allowed location chain = true) (beyond : Resolve σ) {levels : Nat}
    (enough : min maxDepth (table.size + 1) ≤ levels) (location : String) (session : Session σ) :
    Compiler.compileLocation ⟨resolver.unrolled allowed beyond levels, maxDepth⟩ location session =
      Compiler.compileLocation ⟨resolver, maxDepth⟩ location session := by
  unfold Compiler.compileLocation
  dsimp only
  cases entered : (ImportChain.start maxDepth).enter location with
  | error failure => rfl
  | ok chain =>
      have same := reads.resolveUnder_unrolled allows beyond enough session
        (ImportChain.reaching_of_enter entered)
      dsimp only
      rw [same]

/-- No request notices that the calls of a resolver over a table are unrolled. -/
theorem Resolver.Reads.serve_unrolled (reads : resolver.Reads (.ofTable table)) (request : Request)
    (allows : ∀ location chain, Handed request.maxDepth table.size location chain →
      allowed location chain = true) (beyond : Resolve σ) {levels : Nat}
    (enough : min request.maxDepth (table.size + 1) ≤ levels) (session : Session σ) :
    request.serve (resolver.unrolled allowed beyond levels) session =
      request.serve resolver session := by
  have compiles := fun recipe =>
    reads.compileRecipe_unrolled allows beyond enough recipe session
  obtain ⟨task, maxDepth⟩ := request
  cases task with
  | recipe recipe => simp only [Request.serve, compiles]
  | strict source => simp only [Request.serve, Compiler.compile, compiles]
  | lenient source => simp only [Request.serve, Compiler.compileLenient, compiles]
  | location location =>
      simp only [Request.serve, reads.compileLocation_unrolled allows beyond enough]

/-- What a request adds to the journal keeps to the bounds. -/
theorem Resolver.Reads.serve_journal (reads : resolver.Reads (.ofTable table)) (request : Request)
    (session : Session σ) :
    JournalGoesOn request.maxDepth table.size session.journal
      (request.serve resolver session).2.journal := by
  obtain ⟨task, maxDepth⟩ := request
  have returns := reads.resolveWithin_returns maxDepth (maxDepth - 0)
  have compiles : ∀ recipe, JournalGoesOn maxDepth table.size session.journal
      (Compiler.compileRecipe ⟨resolver, maxDepth⟩ recipe session).2.journal := fun recipe =>
    (returns.build recipe (.start maxDepth) session .nothing rfl).journal
  cases task with
  | recipe recipe => exact compiles recipe
  | lenient source => exact compiles _
  | strict source =>
      simp only [Request.serve, Compiler.compile]
      cases Recipe.parse source with
      | error failure => exact .refl _
      | ok recipe => exact compiles recipe
  | location location =>
      simp only [Request.serve, Compiler.compileLocation]
      cases entered : (ImportChain.start maxDepth).enter location with
      | error failure => exact .refl _
      | ok chain =>
          have back := (returns location [] chain session
            (ImportChain.reaching_of_enter entered)).journal
          unfold Resolver.resolveUnder
          dsimp only
          split
          · exact back
          · exact back

end Serving

/-- The resolver over a table of texts, with or without a cache. -/
def Bundled.ofTable (table : OrderedMap String String) (cached : Bool) : Bundled :=
  if cached then .caching (.ofTable table) else .plain (.ofTable table)

theorem Bundled.ofTable_reads (table : OrderedMap String String) (cached : Bool) :
    (ofTable table cached).resolver.Reads (.ofTable table) := by
  cases cached with
  | true => exact Resolver.caching_reads _
  | false => exact Resolver.plain_reads _

/-- Resolution over a table of texts ends and stays within its bounds, whatever the texts import and
whatever the session has seen before. Calls that are nested deeper than imports may be, or deeper
than there are texts, are never made, and neither are calls with a chain that is not as it has to
be: nothing changes if they are answered by anything else. All chains that the journal tells of keep
to the bounds. And what is recorded on a chain that a resolver is handed is recorded at a distance
that can be computed from the number of its locations, without falling below zero. -/
theorem Bundled.resolution_bounded (table : OrderedMap String String) (cached : Bool)
    (request : Request) (session : Session Cache) :
    let resolver := (ofTable table cached).resolver
    (∀ allowed : String → ImportChain → Bool,
      (∀ location chain, Handed request.maxDepth table.size location chain →
        allowed location chain = true) →
      ∀ beyond levels, min request.maxDepth (table.size + 1) ≤ levels →
        request.serve (resolver.unrolled allowed beyond levels) session =
          request.serve resolver session) ∧
      (∃ notes, (request.serve resolver session).2.journal = session.journal ++ notes ∧
        ∀ location chain, .entered location chain ∈ notes →
          chain.getLast? = some location ∧ chain.Nodup ∧ chain.length ≤ request.maxDepth ∧
            chain.length ≤ table.size + 1) ∧
      ∀ location chain, Handed request.maxDepth table.size location chain →
        ∀ below index, index < chain.steps.length →
          let size := chain.locations.dedup.length
          index + 1 ≤ size ∧
            (chain.record below).steps.reverse[index]? = chain.steps.reverse[index]?.map fun step =>
              { step with reach := step.reach.adding below (size - 1 - index) } := by
  intro resolver
  have reads := ofTable_reads table cached
  refine ⟨?_, ?_, ?_⟩
  · intro allowed allows beyond levels enough
    exact reads.serve_unrolled request allows beyond enough session
  · obtain ⟨notes, journal, bounded⟩ := reads.serve_journal request session
    exact ⟨notes, journal, fun location chain held => bounded _ held⟩
  · intro location chain handed below index inside size
    have counted : size = chain.depth := handed.length_dedup
    rw [counted]
    exact ⟨inside, chain.getElem?_record below inside⟩

/-- Two recipes that import each other. -/
def OrderedMap.circle : OrderedMap String String :=
  .ofList [("a", "s @ 'b'"), ("b", "t @ 'a'")]

/-- A recipe that imports one of them, with room for more imports than can be counted. -/
def Request.circling : Request :=
  ⟨.strict "n @ 'a'", 2 ^ 64 - 1⟩

private theorem circle_entered : JournalEntry.entered "b" ["a", "b"] ∈
    (Request.circling.serve (Bundled.ofTable .circle true).resolver (.start .empty)).2.journal := by
  decide +kernel

/-- An answer that no recipe gives. -/
def Resolve.refusing : Resolve Cache := fun location chain session =>
  ⟨.error (.unsupported location), chain, session⟩

/-- The two are entered one after the other, and it does not matter what a fourth level of imports
would be answered with. -/
theorem Bundled.resolution_bounded_of_circle :
    Request.circling.serve ((ofTable .circle true).resolver.unrolled
        (fun _ chain => chain.depth ≤ 3) .refusing 3) (.start .empty) =
      Request.circling.serve (ofTable .circle true).resolver (.start .empty) ∧
      (∃ chain, .entered "b" chain ∈ (Request.circling.serve (ofTable .circle true).resolver
        (.start .empty)).2.journal ∧ chain.getLast? = some "b" ∧ chain.Nodup) ∧
      0 + 1 ≤ ((ImportChain.start Request.circling.maxDepth).push "a").locations.dedup.length := by
  have entered := circle_entered
  obtain ⟨ends, ⟨notes, journal, bounded⟩, counted⟩ :=
    resolution_bounded .circle true Request.circling (.start .empty)
  refine ⟨ends _ (fun _ _ handed => decide_eq_true handed.short) .refusing 3 (by decide), ?_, ?_⟩
  · rw [journal] at entered ⊢
    have inside : JournalEntry.entered "b" ["a", "b"] ∈ notes := entered
    obtain ⟨last, distinct, _⟩ := bounded _ _ inside
    exact ⟨_, entered, last, distinct⟩
  · have admitted : (ImportChain.start Request.circling.maxDepth).mayEnter "a" = .ok () :=
      ImportChain.mayEnter_eq_ok_iff.2 ⟨rfl, by decide⟩
    have reaching : ((ImportChain.start Request.circling.maxDepth).push "a").Reaching
        .circle Request.circling.maxDepth "a" [] := reaching_entering rfl rfl .nothing admitted
    exact (counted "a" _ reaching.handed .nothing 0 (by decide)).1

end RecipeGraph
