/-
# What every session maintains

A resolver is sound when, given a sound way to compile what it finds, everything it hands out is
sound and new. Compiling with room for one more import turns a sound resolver into a sound way to
resolve, so by induction on the room every import of every session is sound. A caching resolver
needs that what it keeps is sound with every identifier defined once; then its copies are.
-/

import RecipeGraph.Proofs.Build.Soundness
import RecipeGraph.Proofs.Graph.FreshCopy
import RecipeGraph.Proofs.Parser.Findings
import RecipeGraph.Proofs.Session.Request

namespace RecipeGraph

variable {σ : Type} {keeps : σ → Prop} {old : List String}

/-- Compiling a text that was found comes to something sound in every sound session. -/
def CompileSource.Sound (keeps : σ → Prop) (compile : CompileSource σ) : Prop :=
  ∀ old location source chain session, session.Sound keeps old →
    (compile location source chain session).Sound keeps old session.supply

namespace Session.Sound

variable {session : Session σ}

theorem note (sound : session.Sound keeps old) (entry : JournalEntry) :
    (session.note entry).Sound keeps old :=
  ⟨sound.silent, sound.store⟩

theorem supplied (sound : session.Sound keeps old) (supply : IdSupply) :
    Session.Sound keeps old { session with supply := supply } :=
  ⟨sound.silent, sound.store⟩

end Session.Sound

namespace Fetched.Sound

variable {session : Session σ}

/-- A failure that changes nothing but the journal is sound. -/
theorem failed (sound : session.Sound keeps old) (failure : ImportError) (chain : ImportChain) :
    Fetched.Sound keeps old session.supply ⟨.error failure, chain, session⟩ :=
  ⟨Nat.le_refl _, sound, nofun⟩

end Fetched.Sound

namespace Resolver

/-- A resolver that makes sound ways to resolve out of sound ways to compile. -/
def Sound (keeps : σ → Prop) (resolver : Resolver σ) : Prop :=
  ∀ compile, CompileSource.Sound keeps compile → Resolve.Sound keeps (resolver.answer compile)

theorem compileSource_sound {resolve : Resolve σ} (resolves : resolve.Sound keeps) :
    CompileSource.Sound keeps (compileSource resolve) := by
  intro old location source chain session sound
  unfold compileSource
  split
  · exact .failed sound _ chain
  · next recipe _ =>
      have built := recipe.build_sound resolves chain sound
      exact ⟨built.made.forward, built.session, fun graph given => Except.ok.inj given ▸ built.made⟩

theorem journaled_sound {resolve : Resolve σ} (resolves : resolve.Sound keeps) :
    (journaled resolve).Sound keeps := by
  intro old location chain session sound
  have fetched := resolves old location chain _ (sound.note (.entered location chain.locations))
  exact ⟨fetched.forward, fetched.session.note _, fetched.made⟩

/-- However much room there is, a sound resolver resolves soundly. -/
theorem Sound.resolveWithin {resolver : Resolver σ} (sound : resolver.Sound keeps) (room : Nat) :
    (resolver.resolveWithin room).Sound keeps := by
  induction room with
  | zero => exact fun _ _ chain _ session => .failed session _ chain
  | succ room step => exact journaled_sound (sound _ (compileSource_sound step))

theorem plain_answer (loader : Loader) (compile : CompileSource σ) (location : String)
    (chain : ImportChain) (session : Session σ) :
    (plain loader).answer compile location chain session =
      match loader location with
      | .error failure => ⟨.error failure, chain, session.note (.loaded location false)⟩
      | .ok source => compile location source chain (session.note (.loaded location true)) := by
  simp only [plain, load]
  cases loader location with
  | error failure => rfl
  | ok source => rfl

/-- What the resolver without memory does with a text that it finds. -/
theorem plain_resolveWithin_of_found {loader : Loader} {location source : String} (room : Nat)
    (chain : ImportChain) (found : loader location = .ok source) (session : Session σ) :
    (plain loader).resolveWithin (room + 1) location chain session =
      let fetched := compileSource ((plain loader).resolveWithin room) location source chain
        ((session.note (.entered location chain.locations)).note (.loaded location true))
      { fetched with
        session := fetched.session.note
          (.left location chain.depth fetched.result.isOk fetched.chain.reach) } := by
  show journaled _ location chain session = _
  unfold journaled
  rw [plain_answer, found]

/-- What the resolver without memory does where it finds no text. -/
theorem plain_resolveWithin_of_missing {loader : Loader} {location : String} {room : Nat}
    {chain : ImportChain} {failure : ImportError} (missing : loader location = .error failure)
    (session : Session σ) :
    (plain loader).resolveWithin (room + 1) location chain session =
      ⟨.error failure, chain, ((session.note (.entered location chain.locations)).note
        (.loaded location false)).note (.left location chain.depth false chain.reach)⟩ := by
  show journaled _ location chain session = _
  unfold journaled
  rw [plain_answer, missing]
  rfl

theorem plain_sound (loader : Loader) : (plain loader).Sound keeps := by
  intro compile compiles old location chain session sound
  rw [plain_answer]
  split
  · exact .failed (sound.note (.loaded location false)) _ chain
  · next source _ => exact compiles old location source chain _ (sound.note (.loaded location true))

theorem noImports_sound : (noImports : Resolver σ).Sound keeps := fun _ _ _ _ chain _ sound =>
  .failed sound _ chain

end Resolver

/-- What a caching resolver keeps is sound, and defines every identifier once. -/
def Cache.Sound (cache : Cache) : Prop :=
  ∀ entry ∈ cache.values, entry.graph.SoundThroughout ∧ entry.graph.ids.Nodup

theorem Cache.sound_empty : Cache.Sound .empty := nofun

/-- A copy is made while it is taken. -/
theorem Session.copy_sound {session : Session σ} (sound : session.Sound keeps old) {graph : Dag}
    (whole : graph.SoundThroughout) (distinct : graph.ids.Nodup) :
    (session.copy graph).1.Made session.supply (session.copy graph).2.supply ∧
      (session.copy graph).2.Sound keeps old :=
  ⟨Dag.freshCopy_made whole distinct session.supply, sound.supplied _⟩

theorem Session.keep_sound {session : Session Cache} (sound : session.Sound Cache.Sound old)
    (location : String) {graph : Dag} (reach : Reach) (whole : graph.SoundThroughout)
    (distinct : graph.ids.Nodup) :
    session.supply.next ≤ (session.keep location graph reach).supply.next ∧
      (session.keep location graph reach).Sound Cache.Sound old := by
  obtain ⟨made, copied⟩ := Session.copy_sound sound whole distinct
  refine ⟨made.forward, copied.silent, ?_⟩
  intro entry held
  rcases OrderedMap.mem_values_insert held with rfl | old
  · exact ⟨made.sound, made.distinct⟩
  · exact sound.store entry old

namespace Resolver

/-- What a caching resolver does with an import that it had to compile. -/
def remember (location : String) (fetched : Fetched Cache) : Fetched Cache :=
  match fetched.result with
  | .error _ => fetched
  | .ok graph =>
    if fetched.chain.reach.truncated then fetched
    else { fetched with session := fetched.session.keep location graph fetched.chain.reach }

theorem caching_answer (loader : Loader) (compile : CompileSource Cache) (location : String)
    (chain : ImportChain) (session : Session Cache) :
    (caching loader).answer compile location chain session =
      match session.store.fitting? location chain with
      | some entry => ⟨.ok (session.copy entry.graph).1, chain.record entry.reach,
          (session.copy entry.graph).2⟩
      | none =>
        match loader location with
        | .error failure => ⟨.error failure, chain, session.note (.loaded location false)⟩
        | .ok source =>
          remember location
            (compile location source chain (session.note (.loaded location true))) := by
  simp only [caching, load]
  cases session.store.fitting? location chain with
  | some entry => rfl
  | none =>
      cases loader location with
      | error failure => rfl
      | ok source => rfl

theorem remember_sound {start : IdSupply} {fetched : Fetched Cache}
    (sound : fetched.Sound Cache.Sound old start) (location : String) :
    (remember location fetched).Sound Cache.Sound old start := by
  unfold remember
  split
  · exact sound
  · next graph given =>
      split
      · exact sound
      · have made := sound.made graph given
        obtain ⟨later, kept⟩ := Session.keep_sound sound.session location fetched.chain.reach
          made.sound made.distinct
        exact ⟨Nat.le_trans sound.forward later, kept,
          fun other given' => (sound.made other given').extend later⟩

theorem caching_sound (loader : Loader) : (caching loader).Sound Cache.Sound := by
  intro compile compiles old location chain session sound
  rw [caching_answer]
  split
  · next entry found =>
      have held := OrderedMap.mem_values_of_get? (Option.filter_eq_some_iff.1 found).1
      obtain ⟨whole, distinct⟩ := sound.store entry held
      obtain ⟨made, copied⟩ := Session.copy_sound sound whole distinct
      exact ⟨made.forward, copied, fun graph given => Except.ok.inj given ▸ made⟩
  · split
    · exact .failed (sound.note (.loaded location false)) _ chain
    · next source _ =>
        exact remember_sound (compiles old location source chain _
          (sound.note (.loaded location true))) location

end Resolver

/-- All the resolvers that are ready for use are sound. -/
theorem Bundled.resolver_sound (bundled : Bundled) : bundled.resolver.Sound Cache.Sound := by
  cases bundled with
  | plain loader => exact Resolver.plain_sound loader
  | caching loader => exact Resolver.caching_sound loader
  | noImports => exact Resolver.noImports_sound

/-! ### Requests -/

/-- What every answer of a session has to be: its graph is sound and defines every identifier once,
and no diagnostic tells of an edge that was refused. -/
structure Answer.Sound (answer : Answer) : Prop where
  whole : ∀ graph, answer.result = .ok graph → graph.SoundThroughout
  distinct : ∀ graph, answer.result = .ok graph → graph.ids.Nodup
  quiet : ∀ diagnostic ∈ answer.findings, diagnostic.code ≠ some .malformedEdge

/-- Text that was not understood is no edge that was refused. -/
theorem Parser.IsReadingError.code_ne {diagnostic : Diagnostic}
    (reading : Parser.IsReadingError diagnostic) : diagnostic.code ≠ some .malformedEdge := by
  rcases reading with same | same
  · rw [same]
    decide
  · rw [same]
    decide

section Serving

variable {resolver : Resolver σ} {session : Session σ}

theorem Compiler.compileRecipe_sound (resolves : resolver.Sound keeps) (maxDepth : Nat)
    (recipe : Recipe) (sound : session.Sound keeps old) :
    (Answer.compiled (Compiler.compileRecipe ⟨resolver, maxDepth⟩ recipe session).1).Sound ∧
      (Compiler.compileRecipe ⟨resolver, maxDepth⟩ recipe session).2.Sound keeps old := by
  have built := recipe.build_sound (resolves.resolveWithin (maxDepth - 0)) (.start maxDepth) sound
  exact ⟨⟨fun graph given => Except.ok.inj given ▸ built.made.sound,
    fun graph given => Except.ok.inj given ▸ built.made.distinct, built.quiet⟩, built.session⟩

/-- One request keeps the session sound, and its answer is sound. -/
theorem Request.serve_sound (resolves : resolver.Sound keeps) (request : Request)
    (sound : session.Sound keeps old) :
    (request.serve resolver session).1.Sound ∧ (request.serve resolver session).2.Sound keeps old := by
  obtain ⟨task, maxDepth⟩ := request
  cases task with
  | recipe recipe => exact Compiler.compileRecipe_sound resolves maxDepth recipe sound
  | lenient source =>
      have built := Compiler.compileRecipe_sound resolves maxDepth (Recipe.parseLenient source).1
        sound
      refine ⟨⟨built.1.whole, built.1.distinct, ?_⟩, built.2⟩
      intro diagnostic held
      rcases List.mem_append.1 held with reading | building
      · exact (Recipe.parseLenient_findings source diagnostic reading).code_ne
      · exact built.1.quiet diagnostic building
  | strict source =>
      simp only [Request.serve, Compiler.compile]
      cases parsed : Recipe.parse source with
      | error failure =>
          refine ⟨⟨nofun, nofun, fun diagnostic held => ?_⟩, sound⟩
          have held : diagnostic ∈ failure.diagnostics ++ [] := held
          rw [List.append_nil, Recipe.parse_error parsed] at held
          exact (Recipe.parseLenient_findings source diagnostic held).code_ne
      | ok recipe => exact Compiler.compileRecipe_sound resolves maxDepth recipe sound
  | location location =>
      simp only [Request.serve, Compiler.compileLocation]
      cases (ImportChain.start maxDepth).enter location with
      | error failure => exact ⟨⟨nofun, nofun, nofun⟩, sound⟩
      | ok inner =>
          have fetched := resolves.resolveWithin (maxDepth - 0) old location inner session sound
          unfold Resolver.resolveUnder
          change Fetched.Sound keeps old _ (resolver.resolveWithin
            ((ImportChain.start maxDepth).maxDepth - (ImportChain.start maxDepth).depth) location
            inner session) at fetched
          dsimp only
          split
          · exact ⟨⟨nofun, nofun, nofun⟩, fetched.session⟩
          · next graph given =>
              have made := fetched.made graph given
              exact ⟨⟨fun other same => Except.ok.inj same ▸ made.sound,
                fun other same => Except.ok.inj same ▸ made.distinct, nofun⟩, fetched.session⟩

/-- A whole session stays sound, and all its answers are sound. -/
theorem serveAll_sound (resolves : resolver.Sound keeps) (requests : List Request)
    (sound : session.Sound keeps old) :
    (∀ answer ∈ (serveAll resolver requests session).1, answer.Sound) ∧
      (serveAll resolver requests session).2.Sound keeps old := by
  induction requests generalizing session with
  | nil => exact ⟨nofun, sound⟩
  | cons request rest step =>
      obtain ⟨here, sound'⟩ := request.serve_sound resolves sound
      obtain ⟨later, sound''⟩ := step sound'
      refine ⟨fun answer held => ?_, sound''⟩
      rcases List.mem_cons.1 held with rfl | inside
      · exact here
      · exact later answer inside

end Serving

/-- Every session of a resolver that is ready for use is sound. -/
theorem Bundled.serve_sound (bundled : Bundled) (requests : List Request) :
    (∀ answer ∈ (bundled.serve requests).1, answer.Sound) ∧
      (bundled.serve requests).2.Sound Cache.Sound [] :=
  serveAll_sound bundled.resolver_sound requests ⟨nofun, Cache.sound_empty⟩

end RecipeGraph
