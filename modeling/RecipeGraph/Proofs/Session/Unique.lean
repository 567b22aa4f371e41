/-
# No identifier is used twice

All graphs of a session take their identifiers from one supply: those that are handed over, those
that a caching resolver keeps, and the copies made of these. Each identifier is handed out once, and
whatever is kept is a copy of its own; so no two elements of all the graphs that a session hands over
share an identifier, and none of them shares one with what is kept at any time.
-/

import RecipeGraph.Proofs.Build.Provenance
import RecipeGraph.Proofs.Session.Levels

namespace RecipeGraph

/-! ### Copies -/

namespace Session

variable {session : Session Cache}

theorem copy_goesOn (session : Session Cache) (graph : Dag) :
    session.GoesOn (session.copy graph).2 :=
  .supplied (graph.freshCopy_minted session.supply).1 rfl

/-- A copy has new identifiers. -/
theorem Handed.copy (handed : session.Handed) (graph : Dag) :
    ∀ id ∈ (session.copy graph).1.ids, session.Grants (session.copy graph).2 id := fun id held =>
  have between := (graph.freshCopy_minted session.supply).2 id held
  ⟨between, handed.not_kept between⟩

/-- What is kept has new identifiers. -/
theorem keep_goesOn (session : Session Cache) (location : String) (graph : Dag) (reach : Reach) :
    session.GoesOn (session.keep location graph reach) where
  forward := (session.copy_goesOn graph).forward
  stored id held := by
    obtain ⟨entry, inside, held⟩ := Cache.mem_ids.1 held
    rcases OrderedMap.mem_values_insert inside with rfl | old
    · exact .inr ((graph.freshCopy_minted session.supply).2 id held)
    · exact .inl (Cache.mem_ids.2 ⟨entry, old, held⟩)

end Session

/-! ### Resolvers -/

/-- Compiling a text that was found gives nothing but what was handed out for it. -/
def CompileSource.Adds (compile : CompileSource Cache) : Prop :=
  ∀ location source chain session, session.Handed →
    (compile location source chain session).Adds session

theorem Fetched.Adds.failed (session : Session Cache) (failure : ImportError) (chain : ImportChain) :
    Fetched.Adds session ⟨.error failure, chain, session⟩ :=
  ⟨.refl session, nofun⟩

/-- Entries in the journal have no part in this. -/
theorem Fetched.Adds.of_note {session : Session Cache} {entry : JournalEntry}
    {fetched : Fetched Cache} (adds : fetched.Adds (session.note entry)) : fetched.Adds session where
  goesOn := ⟨adds.goesOn.forward, adds.goesOn.stored⟩
  granted graph given id held :=
    have granted := adds.granted graph given id held
    ⟨granted.between, granted.free⟩

namespace Resolver

/-- A resolver that gives nothing but what was handed out, if compiling does. -/
def Adds (resolver : Resolver Cache) : Prop :=
  ∀ compile, CompileSource.Adds compile → Resolve.Adds (resolver.answer compile)

theorem compileSource_adds {resolve : Resolve Cache} (resolves : resolve.Adds) :
    CompileSource.Adds (compileSource resolve) := by
  intro location source chain session handed
  unfold compileSource
  split
  · exact .failed session _ chain
  · next recipe _ =>
      obtain ⟨goesOn, granted⟩ := recipe.build_adds resolves chain handed
      exact ⟨goesOn, fun graph given => Except.ok.inj given ▸ granted⟩

theorem journaled_adds {resolve : Resolve Cache} (resolves : resolve.Adds) :
    (journaled resolve).Adds := by
  intro location chain session handed
  have fetched := (resolves location chain (session.note (.entered location chain.locations))
    handed).of_note
  refine ⟨⟨fetched.goesOn.forward, fetched.goesOn.stored⟩, fun graph given id held => ?_⟩
  have granted := fetched.granted graph given id held
  exact ⟨granted.between, granted.free⟩

theorem Adds.resolveWithin {resolver : Resolver Cache} (adds : resolver.Adds) (room : Nat) :
    (resolver.resolveWithin room).Adds := by
  induction room with
  | zero => exact fun location chain session _ => .failed session _ chain
  | succ room step => exact journaled_adds (adds _ (compileSource_adds step))

theorem plain_adds (loader : Loader) : (plain loader).Adds := by
  intro compile compiles location chain session handed
  rw [plain_answer]
  split
  · exact (Fetched.Adds.failed _ _ chain).of_note
  · next source _ =>
      exact (compiles location source chain (session.note (.loaded location true)) handed).of_note

theorem noImports_adds : noImports.Adds := fun _ _ _ chain session _ =>
  .failed session _ chain

theorem remember_adds {session : Session Cache} {fetched : Fetched Cache}
    (adds : fetched.Adds session) (location : String) : (remember location fetched).Adds session := by
  unfold remember
  split
  · exact adds
  · next graph given =>
      split
      · exact adds
      · have kept := fetched.session.keep_goesOn location graph fetched.chain.reach
        exact ⟨adds.goesOn.trans kept,
          fun other given id held => (adds.granted other given id held).later kept⟩

theorem caching_adds (loader : Loader) : (caching loader).Adds := by
  intro compile compiles location chain session handed
  rw [caching_answer]
  split
  · next entry _ =>
      exact ⟨session.copy_goesOn entry.graph,
        fun graph given => Except.ok.inj given ▸ handed.copy entry.graph⟩
  · split
    · exact (Fetched.Adds.failed _ _ chain).of_note
    · next source _ =>
        have compiled := compiles location source chain (session.note (.loaded location true)) handed
        exact remember_adds compiled.of_note location

end Resolver

theorem Bundled.resolver_adds (bundled : Bundled) : bundled.resolver.Adds := by
  cases bundled with
  | plain loader => exact Resolver.plain_adds loader
  | caching loader => exact Resolver.caching_adds loader
  | noImports => exact Resolver.noImports_adds

/-! ### Requests -/

/-- The identifiers that the graph of an answer defines, if there is one. -/
def Answer.ids (answer : Answer) : List Id :=
  match answer.result with
  | .ok graph => graph.ids
  | .error _ => []

/-- A request has gone on with the session, and its answer has new identifiers that are not kept. -/
structure Answer.Adds (session : Session Cache) (served : Answer × Session Cache) : Prop where
  goesOn : session.GoesOn served.2
  granted : ∀ id ∈ served.1.ids, session.Grants served.2 id

section Serving

variable {resolver : Resolver Cache} {session : Session Cache}

theorem Compiler.compileRecipe_adds (adds : resolver.Adds) (maxDepth : Nat) (recipe : Recipe)
    (handed : session.Handed) :
    session.GoesOn (compileRecipe ⟨resolver, maxDepth⟩ recipe session).2 ∧
      ∀ id ∈ (compileRecipe ⟨resolver, maxDepth⟩ recipe session).1.graph.ids,
        session.Grants (compileRecipe ⟨resolver, maxDepth⟩ recipe session).2 id :=
  recipe.build_adds (adds.resolveWithin (maxDepth - 0)) (.start maxDepth) handed

theorem Request.serve_adds (adds : resolver.Adds) (request : Request) (handed : session.Handed) :
    Answer.Adds session (request.serve resolver session) := by
  obtain ⟨task, maxDepth⟩ := request
  have compiled := fun recipe => Compiler.compileRecipe_adds adds maxDepth recipe handed
  cases task with
  | recipe recipe => exact ⟨(compiled recipe).1, (compiled recipe).2⟩
  | lenient source => exact ⟨(compiled _).1, (compiled _).2⟩
  | strict source =>
      simp only [serve, Compiler.compile]
      cases Recipe.parse source with
      | error failure => exact ⟨.refl session, fun _ => List.not_mem_nil.elim⟩
      | ok recipe => exact ⟨(compiled recipe).1, (compiled recipe).2⟩
  | location location =>
      simp only [serve, Compiler.compileLocation]
      cases (ImportChain.start maxDepth).enter location with
      | error failure => exact ⟨.refl session, fun _ => List.not_mem_nil.elim⟩
      | ok inner =>
          have fetched := adds.resolveWithin (maxDepth - 0) location inner session handed
          change Fetched.Adds session
            (resolver.resolveUnder (.start maxDepth) location inner session) at fetched
          dsimp only
          split
          · exact ⟨fetched.goesOn, fun _ => List.not_mem_nil.elim⟩
          · next graph given => exact ⟨fetched.goesOn, fetched.granted graph given⟩

theorem Answer.Sound.ids_nodup {answer : Answer} (sound : answer.Sound) : answer.ids.Nodup := by
  unfold ids
  split
  · next graph given => exact sound.distinct graph given
  · exact List.nodup_nil

/-- All answers together define every identifier once, and none of them is kept. -/
theorem serveAll_adds {keeps : Cache → Prop} {old : List String} (adds : resolver.Adds)
    (sound : resolver.Sound keeps) (requests : List Request) (handed : session.Handed)
    (whole : session.Sound keeps old) :
    session.GoesOn (serveAll resolver requests session).2 ∧
      ((serveAll resolver requests session).1.flatMap Answer.ids).Nodup ∧
      ∀ id ∈ (serveAll resolver requests session).1.flatMap Answer.ids,
        session.Grants (serveAll resolver requests session).2 id := by
  induction requests generalizing session with
  | nil => exact ⟨.refl session, List.nodup_nil, nofun⟩
  | cons request rest step =>
      have here := request.serve_adds adds handed
      obtain ⟨answer, whole'⟩ := request.serve_sound sound whole
      obtain ⟨goesOn, distinct, granted⟩ := step (here.goesOn.handed handed) whole'
      refine ⟨here.goesOn.trans goesOn, ?_, fun id held => ?_⟩
      · refine List.nodup_append.2 ⟨answer.ids_nodup, distinct, fun id first id' later => ?_⟩
        exact (here.granted id first).between.ne (granted id' later).between
      · rcases List.mem_append.1 held with first | later
        · exact (here.granted id first).later goesOn
        · exact (granted id later).earlier here.goesOn

theorem serveAll_append (resolver : Resolver Cache) (first second : List Request)
    (session : Session Cache) :
    serveAll resolver (first ++ second) session =
      let served := serveAll resolver first session
      let later := serveAll resolver second served.2
      (served.1 ++ later.1, later.2) := by
  induction first generalizing session with
  | nil => rfl
  | cons request rest step => simp only [List.cons_append, serveAll, step]

end Serving

/-- Everything on a level is stored under its own identifier. -/
def Dag.Keyed (level : Dag) : Prop :=
  (∀ entry ∈ level.nodes.entries, entry.1 = entry.2.id) ∧
    (∀ entry ∈ level.edges.entries, entry.1 = entry.2.id) ∧
    ∀ entry ∈ level.children.entries, entry.1 = entry.2.id

theorem Dag.Sound.keyed {level : Dag} (sound : level.Sound) : level.Keyed :=
  ⟨sound.nodes_keyed, sound.edges_keyed, sound.children_keyed⟩

theorem Session.handed_start : (Session.start (.empty : Cache)).Handed := nofun

namespace Bundled

/-- No identifier is used twice in a session. The levels, nodes and edges of all graphs handed over,
at every depth, have different identifiers, and a graph that is kept at any time of the session has
none of them. Identifiers are read off the keys of a graph, which are those of what is stored there,
on every level. -/
theorem identifiers_unique (bundled : Bundled) (first second : List Request) :
    let results := (bundled.serve (first ++ second)).1
    let kept := (bundled.serve first).2.store
    (results.flatMap Answer.ids).Nodup ∧
      (∀ entry ∈ kept.values, ∀ id ∈ entry.graph.ids, id ∉ results.flatMap Answer.ids) ∧
      (∀ answer ∈ results, ∀ graph level, answer.result = .ok graph → graph.HasLevel level →
        level.Keyed) ∧
      ∀ entry ∈ kept.values, ∀ level, entry.graph.HasLevel level → level.Keyed := by
  intro results kept
  have start : (Session.start (.empty : Cache)).Sound Cache.Sound [] := ⟨nofun, Cache.sound_empty⟩
  obtain ⟨_, distinct, _⟩ := serveAll_adds bundled.resolver_adds bundled.resolver_sound
    (first ++ second) Session.handed_start start
  obtain ⟨goesOn, _, granted⟩ := serveAll_adds bundled.resolver_adds bundled.resolver_sound first
    Session.handed_start start
  have handed := goesOn.handed Session.handed_start
  obtain ⟨_, _, granted'⟩ := serveAll_adds bundled.resolver_adds bundled.resolver_sound second
    handed (bundled.serve_sound first).2
  refine ⟨distinct, fun entry held id inside used => ?_, ?_, ?_⟩
  · have stored : id ∈ kept.ids := Cache.mem_ids.2 ⟨entry, held, inside⟩
    have split : results = (bundled.serve first).1 ++
        (serveAll bundled.resolver second (bundled.serve first).2).1 :=
      congrArg Prod.fst (serveAll_append bundled.resolver first second _)
    rw [split, List.flatMap_append] at used
    rcases List.mem_append.1 used with before | after
    · exact (granted id before).free stored
    · exact (handed id stored).apart (granted' id after).between
  · intro answer held graph level given has
    exact (((bundled.serve_sound (first ++ second)).1 answer held).whole graph given level has).keyed
  · intro entry held level has
    exact (((bundled.serve_sound first).2.store entry held).1 level has).keyed

end Bundled

/-- A recipe that imports the sample twice, nested and merged, and then the sample itself. -/
def Request.repeated : List Request :=
  [⟨.strict "s @ 'a'; @ 'a'", 4⟩, ⟨.location "a", 4⟩]

namespace Bundled

private theorem repeated_kept :
    (sample.serve Request.repeated).2.store.values.map (fun entry => entry.graph.ids.length) = [4] ∧
      ((sample.serve (Request.repeated ++ Request.repeated)).1.flatMap Answer.ids).length = 24 := by
  decide +kernel

/-- The same requests made twice come to 24 different identifiers, all handed over by copies of one
graph of four that is kept. -/
theorem identifiers_unique_of_sample :
    let results := (sample.serve (Request.repeated ++ Request.repeated)).1
    (results.flatMap Answer.ids).length = 24 ∧ (results.flatMap Answer.ids).Nodup ∧
      ∃ entry ∈ (sample.serve Request.repeated).2.store.values, entry.graph.ids.length = 4 ∧
        ∀ id ∈ entry.graph.ids, id ∉ results.flatMap Answer.ids := by
  intro results
  obtain ⟨distinct, apart, _⟩ := identifiers_unique sample Request.repeated Request.repeated
  obtain ⟨kept, length⟩ := repeated_kept
  obtain ⟨entry, rest, stored, size, _⟩ := List.map_eq_cons_iff.1 kept
  have held : entry ∈ (sample.serve Request.repeated).2.store.values :=
    stored ▸ List.mem_cons_self
  exact ⟨length, distinct, entry, held, size, apart entry held⟩

end Bundled

end RecipeGraph
