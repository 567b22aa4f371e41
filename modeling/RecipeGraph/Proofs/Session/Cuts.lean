/-
# Where imports are cut off

Whether an import is cut off below a location can be said without compiling anything: it depends on
the texts that the loader has, on the way of imports that led to the location, and on how long that
way may become. What a compilation records of it says the same. It also records no more height than
the chain has room for, since every level of it was entered.
-/

import RecipeGraph.Proofs.Session.Independence

namespace RecipeGraph

variable {σ τ : Type}

/-- The locations on the chain, the innermost one first. -/
def ImportChain.way (chain : ImportChain) : List String :=
  chain.steps.map ImportStep.location

/-- An import at the end of a way is cut off: it is on the way already, or the way is full. -/
def CutOff (maxDepth : Nat) (way : List String) (location : String) : Prop :=
  location ∈ way ∨ maxDepth ≤ way.length

/-- Compiling the text at the end of a way meets an import that is cut off, there or further in. -/
inductive Loader.Cuts (loader : Loader) (maxDepth : Nat) : (way : List String) → Prop
  | here {location other source : String} {outer : List String} {recipe : Recipe}
      (loaded : loader location = .ok source) (read : Recipe.parse source = .ok recipe)
      (imports : other ∈ recipe.locations) (cut : CutOff maxDepth (location :: outer) other) :
      Cuts loader maxDepth (location :: outer)
  | further {location other source : String} {outer : List String} {recipe : Recipe}
      (loaded : loader location = .ok source) (read : Recipe.parse source = .ok recipe)
      (imports : other ∈ recipe.locations) (admitted : ¬ CutOff maxDepth (location :: outer) other)
      (inside : Cuts loader maxDepth (other :: location :: outer)) :
      Cuts loader maxDepth (location :: outer)

namespace ImportChain

theorem length_way (chain : ImportChain) : chain.way.length = chain.depth := by
  simp [way, depth]

theorem mem_way_iff {chain : ImportChain} {location : String} :
    location ∈ chain.way ↔ chain.contains location = true := by
  simp [way, contains]

@[simp] theorem way_record (chain : ImportChain) (below : Reach) :
    (chain.record below).way = chain.way := by
  have same := congrArg List.reverse (chain.locations_record below)
  simpa [locations, way] using same

@[simp] theorem way_entering (chain : ImportChain) (location : String) :
    (chain.entering location).way = location :: chain.way :=
  congrArg (location :: ·) (chain.way_record (.ofImport location))

/-- A chain admits just the imports that are not cut off. -/
theorem mayEnter_iff_not_cutOff {chain : ImportChain} {location : String} :
    chain.mayEnter location = .ok () ↔ ¬ CutOff chain.maxDepth chain.way location := by
  rw [mayEnter_eq_ok_iff, CutOff, mem_way_iff, length_way, not_or, Bool.not_eq_true, Nat.not_le]

end ImportChain

/-- A text may be checked to be a recipe with certain imports. -/
theorem Recipe.exists_parse (source : String) (locations : List String)
    (checked : (match Recipe.parse source with
      | .ok recipe => decide (recipe.locations = locations)
      | .error _ => false) = true) :
    ∃ recipe, Recipe.parse source = .ok recipe ∧ recipe.locations = locations := by
  cases read : Recipe.parse source with
  | error failure =>
      rw [read] at checked
      cases checked
  | ok recipe =>
      rw [read] at checked
      exact ⟨recipe, rfl, of_decide_eq_true checked⟩

namespace Loader

variable {loader : Loader} {maxDepth : Nat} {way : List String} {location source : String}
  {recipe : Recipe}

/-- What a table has for a location is one of its entries. -/
theorem mem_of_ofTable {table : OrderedMap String String}
    (found : ofTable table location = .ok source) : (location, source) ∈ table.entries := by
  unfold ofTable at found
  split at found
  · next present => exact Except.ok.inj found ▸ OrderedMap.mem_of_get? present
  · cases found

/-- What is cut off below a text is cut off below one of its imports, or is one of them. -/
theorem cuts_iff (loaded : loader location = .ok source) (read : Recipe.parse source = .ok recipe) :
    loader.Cuts maxDepth (location :: way) ↔ ∃ other ∈ recipe.locations,
      CutOff maxDepth (location :: way) other ∨
        ¬ CutOff maxDepth (location :: way) other ∧
          loader.Cuts maxDepth (other :: location :: way) := by
  constructor
  · intro cuts
    cases cuts with
    | here loaded' read' imports cut =>
        obtain rfl := Except.ok.inj (loaded.symm.trans loaded')
        obtain rfl := Except.ok.inj (read.symm.trans read')
        exact ⟨_, imports, .inl cut⟩
    | further loaded' read' imports admitted inside =>
        obtain rfl := Except.ok.inj (loaded.symm.trans loaded')
        obtain rfl := Except.ok.inj (read.symm.trans read')
        exact ⟨_, imports, .inr ⟨admitted, inside⟩⟩
  · rintro ⟨other, imports, cut | ⟨admitted, inside⟩⟩
    · exact .here loaded read imports cut
    · exact .further loaded read imports admitted inside

/-- A text that imports nothing is cut off nowhere. -/
theorem not_cuts_of_nothing (loaded : loader location = .ok source)
    (read : Recipe.parse source = .ok recipe) (nothing : recipe.locations = []) :
    ¬ loader.Cuts maxDepth (location :: way) := by
  rw [cuts_iff loaded read, nothing]
  simp

theorem not_cuts_of_missing {failure : ImportError} (missing : loader location = .error failure) :
    ¬ loader.Cuts maxDepth (location :: way) := by
  rintro (⟨loaded, _, _, _⟩ | ⟨loaded, _, _, _, _⟩)
  · rw [missing] at loaded
    cases loaded
  · rw [missing] at loaded
    cases loaded

theorem not_cuts_of_malformed {failure : ParseError} (loaded : loader location = .ok source)
    (malformed : Recipe.parse source = .error failure) :
    ¬ loader.Cuts maxDepth (location :: way) := by
  rintro (⟨loaded', read, _, _⟩ | ⟨loaded', read, _, _, _⟩)
  · obtain rfl := Except.ok.inj (loaded.symm.trans loaded')
    rw [malformed] at read
    cases read
  · obtain rfl := Except.ok.inj (loaded.symm.trans loaded')
    rw [malformed] at read
    cases read

end Loader

/-! ### What is recorded of it -/

/-- What has been recorded below a chain is right: it is cut off exactly if one of the imports made
so far is, and it is no higher than the chain has room for. -/
structure ImportChain.Surveyed (loader : Loader) (chain reached : ImportChain)
    (made : List String) : Prop where
  explored : chain.Explored reached
  truncated : reached.reach.truncated = true ↔ ∃ other ∈ made,
    CutOff chain.maxDepth chain.way other ∨
      ¬ CutOff chain.maxDepth chain.way other ∧ loader.Cuts chain.maxDepth (other :: chain.way)
  height : chain.depth + reached.reach.height ≤ chain.maxDepth

/-- What an import that was asked for under a chain records about itself is right. -/
structure Fetched.Surveys (fetched : Fetched σ) (loader : Loader) (chain : ImportChain) : Prop where
  truncated : fetched.chain.reach.truncated = true ↔ loader.Cuts chain.maxDepth chain.way
  height : chain.depth + fetched.chain.reach.height ≤ chain.maxDepth

section Surveyed

variable {loader : Loader} {chain reached : ImportChain} {made : List String} {room : Nat}

theorem ImportChain.Explored.way_eq (explored : chain.Explored reached) : reached.way = chain.way := by
  obtain ⟨below, rfl⟩ := explored.recorded
  exact chain.way_record below

/-- Before anything is imported, nothing has been recorded. -/
theorem ImportChain.Surveyed.nothing (entered : chain.Entered room) :
    chain.Surveyed loader chain [] where
  explored := .refl entered
  truncated := by
    rw [entered.fresh]
    simp [Reach.nothing]
  height := by
    have bound := entered.bound
    have positive := entered.positive
    rw [entered.fresh]
    show chain.depth + 0 ≤ chain.maxDepth
    omega

/-- An import that is cut off is recorded as such. -/
theorem ImportChain.Surveyed.refused (entered : chain.Entered room)
    (surveyed : chain.Surveyed loader reached made) {location : String}
    (refused : ¬ reached.mayEnter location = .ok ()) :
    chain.Surveyed loader reached.recordCut (made ++ [location]) := by
  have explored := surveyed.explored
  have cut : CutOff chain.maxDepth chain.way location := by
    rwa [mayEnter_iff_not_cutOff, explored.maxDepth_eq, explored.way_eq, not_not] at refused
  have reach : reached.recordCut.reach = reached.reach.adding .cut 0 := by
    rw [explored.settled.recordCut, reach_record (explored.nonempty entered)]
  refine ⟨explored.cut entered, ?_, ?_⟩
  · have truncated : reached.recordCut.reach.truncated = true := by
      rw [reach]
      exact Bool.or_true _
    exact iff_of_true truncated ⟨location, by simp, .inl cut⟩
  · have same : reached.recordCut.reach.height = reached.reach.height := by
      rw [reach]
      simp [Reach.adding, Reach.cut]
    rw [same]
    exact surveyed.height

/-- An import that is admitted is recorded with what it has recorded about itself. -/
theorem ImportChain.Surveyed.admitted {fetched : Fetched σ} (entered : chain.Entered (room + 1))
    (surveyed : chain.Surveyed loader reached made) {location : String}
    (admitted : reached.mayEnter location = .ok ())
    (explored' : (reached.entering location).Explored fetched.chain)
    (surveys : fetched.Surveys loader (reached.entering location)) :
    chain.Surveyed loader fetched.chain.leave (made ++ [location]) := by
  have explored := surveyed.explored
  have entered' := entered.entering explored admitted
  have free := mayEnter_iff_not_cutOff.1 admitted
  rw [explored.maxDepth_eq, explored.way_eq] at free
  have below := surveys.truncated
  rw [maxDepth_entering, way_entering, explored.maxDepth_eq, explored.way_eq] at below
  have height := surveys.height
  rw [depth_entering, maxDepth_entering, explored.depth_eq, explored.maxDepth_eq] at height
  have reach : fetched.chain.leave.reach =
      reached.reach.adding ((Reach.ofImport location).adding fetched.chain.reach 1) 0 := by
    rw [explored'.leave_eq entered', reach_record (explored.nonempty entered)]
  refine ⟨explored.enter entered admitted entered' explored', ?_, ?_⟩
  · have split : fetched.chain.leave.reach.truncated = true ↔
        reached.reach.truncated = true ∨ fetched.chain.reach.truncated = true := by
      rw [reach]
      simp [Reach.adding, Reach.ofImport]
    rw [split, surveyed.truncated, below]
    constructor
    · rintro (⟨other, held, cut⟩ | cuts)
      · exact ⟨other, List.mem_append_left _ held, cut⟩
      · exact ⟨location, by simp, .inr ⟨free, cuts⟩⟩
    · rintro ⟨other, held, cut⟩
      rcases List.mem_append.1 held with old | new
      · exact .inl ⟨other, old, cut⟩
      · obtain rfl := List.mem_singleton.1 new
        exact .inr (cut.resolve_left free).2
  · have before := surveyed.height
    rw [reach]
    simp only [Reach.adding, Reach.ofImport]
    omega

/-- Any number of attempts are recorded rightly, if imports further in are. -/
theorem ImportChain.Surveyed.attempts {resolve : Resolve σ} (entered : chain.Entered (room + 1))
    (explores : ∀ location inner session, inner.Entered room →
      (resolve location inner session).Explores location inner session)
    (surveys : ∀ location outer inner session, inner.Entered room → inner.way = location :: outer →
      (resolve location inner session).Surveys loader inner)
    {locations : List String} {before after : Outside σ}
    (attempts : resolve.Attempts locations before after)
    (surveyed : chain.Surveyed loader before.chain made) :
    chain.Surveyed loader after.chain (made ++ locations) := by
  induction attempts generalizing made with
  | nothing outside =>
      rw [List.append_nil]
      exact surveyed
  | @next location rest reached session last later step =>
      have shape : made ++ location :: rest = made ++ [location] ++ rest := by simp
      rw [shape]
      refine step ?_
      by_cases admitted : reached.mayEnter location = .ok ()
      · have entered' := entered.entering surveyed.explored admitted
        rw [Resolve.attempt_of_admitted admitted]
        exact surveyed.admitted entered admitted (explores location _ session entered').explored
          (surveys location _ _ session entered' (reached.way_entering location))
      · cases refused : reached.mayEnter location with
        | ok => exact absurd refused admitted
        | error failure =>
            rw [Resolve.attempt_of_refused refused]
            exact surveyed.refused entered admitted

/-- A resolver without memory records rightly whether an import is cut off, and how high the nested
imports are. -/
theorem Resolver.plain_surveys (loader : Loader) (room : Nat) (location : String)
    (outer : List String) (chain : ImportChain) (session : Session τ) (entered : chain.Entered room)
    (way : chain.way = location :: outer) :
    ((Resolver.plain loader).resolveWithin room location chain session).Surveys loader chain := by
  induction room generalizing location outer chain session with
  | zero => exact absurd entered.positive (Nat.lt_irrefl 0)
  | succ room step =>
      have before : chain.Surveyed loader chain [] := .nothing entered
      have unread : ∀ {fetched : Fetched τ}, fetched.chain = chain →
          ¬ loader.Cuts chain.maxDepth (location :: outer) → fetched.Surveys loader chain := by
        intro fetched same whole
        refine ⟨?_, same ▸ before.height⟩
        rw [same, before.truncated, way]
        exact iff_of_false (by simp) whole
      cases found : loader location with
      | error failure =>
          rw [plain_resolveWithin_of_missing found]
          exact unread rfl (Loader.not_cuts_of_missing found)
      | ok source =>
          rw [plain_resolveWithin_of_found room chain found]
          generalize (session.note _).note _ = session
          unfold compileSource
          cases read : Recipe.parse source with
          | error failure => exact unread rfl (Loader.not_cuts_of_malformed found read)
          | ok recipe =>
              have after := ImportChain.Surveyed.attempts entered (plain_explores loader room) step
                (recipe.attempts_build _ chain session) before
              refine ⟨?_, after.height⟩
              rw [way, Loader.cuts_iff found read, ← way]
              exact after.truncated

end Surveyed

end RecipeGraph
