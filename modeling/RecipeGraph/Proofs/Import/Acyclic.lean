/-
# Imports without circles

The text at a location imports other locations, whether or not there is a text at those. If these
imports run in no circle and chains may become as long as the longest path of imports, then no chain
ever refuses an import, and nothing that was reached below a location is kept from being reached
there again. Both follow from one description of what has been recorded on a chain: that the
locations on it import one another, and that no location has more recorded than its imports lead to.
-/

import Mathlib.Data.List.Chain
import RecipeGraph.Proofs.Graph.Flow
import RecipeGraph.Proofs.Session.Cuts

namespace RecipeGraph

open Relation (ReflTransGen TransGen)

namespace Loader

/-- The text at one location imports another location. -/
def Imports (loader : Loader) (location other : String) : Prop :=
  ∃ source recipe, loader location = .ok source ∧ Recipe.parse source = .ok recipe ∧
    other ∈ recipe.locations

/-- So many imports, each made by the text at the location before, lead from one location to
another. -/
inductive Leads (loader : Loader) : (distance : Nat) → String → String → Prop
  | here (location : String) : Leads loader 0 location location
  | further {distance : Nat} {location next last : String} (imports : loader.Imports location next)
      (rest : Leads loader distance next last) : Leads loader (distance + 1) location last

variable {loader : Loader}

namespace Leads

variable {distance further : Nat} {location other last : String}

theorem trans (leads : loader.Leads distance location other)
    (rest : loader.Leads further other last) : loader.Leads (distance + further) location last := by
  induction leads with
  | here location => rwa [Nat.zero_add]
  | further imports _ step =>
      rw [Nat.add_right_comm]
      exact .further imports (step rest)

theorem reflTransGen (leads : loader.Leads distance location last) :
    ReflTransGen loader.Imports location last := by
  induction leads with
  | here location => exact .refl
  | further imports _ step => exact .head imports step

/-- The locations on the way, both ends included. -/
theorem exists_path (leads : loader.Leads distance location last) :
    ∃ path, (location :: path).IsChain loader.Imports ∧ path.length = distance := by
  induction leads with
  | here location => exact ⟨[], .singleton _, rfl⟩
  | further imports _ step =>
      obtain ⟨path, along, length⟩ := step
      exact ⟨_, .cons_cons imports along, congrArg (· + 1) length⟩

end Leads

/-- Imports run in no circle, and at most so many locations stand on a path of imports. -/
structure Layered (loader : Loader) (depth : Nat) : Prop where
  acyclic : Acyclic loader.Imports
  short : ∀ path : List String, path.Nodup → path.IsChain loader.Imports → path.length ≤ depth

/-- What comes later on a path is imported, directly or not, by what comes before. -/
theorem pairwise_of_isChain {path : List String} (along : path.IsChain loader.Imports) :
    path.Pairwise (TransGen loader.Imports) :=
  (along.imp fun _ _ imports => TransGen.single imports).pairwise

namespace Layered

variable {depth : Nat}

theorem path (layered : loader.Layered depth) {path : List String}
    (along : path.IsChain loader.Imports) : path.Nodup ∧ path.length ≤ depth := by
  have distinct : path.Nodup := by
    refine (pairwise_of_isChain along).imp ?_
    rintro one two leads rfl
    exact layered.acyclic one leads
  exact ⟨distinct, layered.short path distinct along⟩

/-- It is enough to number the locations so that every import goes down. -/
theorem of_rank (rank : String → Nat) (falls : ∀ location other, loader.Imports location other →
    rank other < rank location) (low : ∀ location, rank location < depth) :
    loader.Layered depth where
  acyclic := by
    intro location circle
    have down : ∀ {one two}, TransGen loader.Imports one two → rank two < rank one := by
      intro one two leads
      induction leads with
      | single imports => exact falls _ _ imports
      | tail _ imports before => exact Nat.lt_trans (falls _ _ imports) before
    exact absurd (down circle) (Nat.lt_irrefl _)
  short := by
    have climbs : ∀ (path : List String) (location : String),
        (location :: path).IsChain loader.Imports → path.length ≤ rank location := by
      intro path
      induction path with
      | nil => exact fun _ _ => Nat.zero_le _
      | cons next rest step =>
          intro location along
          obtain ⟨imports, along⟩ := List.isChain_cons_cons.1 along
          exact Nat.lt_of_le_of_lt (step next along) (falls _ _ imports)
    intro path _ along
    cases path with
    | nil => exact Nat.zero_le _
    | cons location rest => exact Nat.lt_of_le_of_lt (climbs rest location along) (low location)

end Layered

end Loader

/-! ### What is recorded where nothing is cut off -/

/-- What has been recorded for a location is no more than what its imports lead to, and nothing was
cut off. -/
structure Reach.Charted (loader : Loader) (location : String) (reach : Reach) : Prop where
  whole : reach.truncated = false
  locations : ∀ other ∈ reach.locations.members, TransGen loader.Imports location other
  height : ∃ last, loader.Leads reach.height location last

namespace Reach.Charted

variable {loader : Loader} {location origin : String} {reach below : Reach} {distance : Nat}

theorem nothing (location : String) : Reach.nothing.Charted loader location :=
  ⟨rfl, nofun, location, .here location⟩

theorem ofImport {other : String} (imports : loader.Imports location other) :
    (Reach.ofImport other).Charted loader location where
  whole := rfl
  locations := fun _ held => List.mem_singleton.1 held ▸ .single imports
  height := ⟨other, .further imports (.here other)⟩

/-- What is recorded for a location further down may be added at its distance. -/
theorem adding (charted : reach.Charted loader location) (deeper : below.Charted loader origin)
    (leads : loader.Leads distance location origin) :
    (reach.adding below distance).Charted loader location where
  whole := by
    rw [Reach.adding, charted.whole, deeper.whole]
    rfl
  locations := by
    intro other held
    rcases (OrderedSet.mem_extend _ _ _).1 held with new | old
    · exact .trans_right leads.reflTransGen (deeper.locations other new)
    · exact charted.locations other old
  height := by
    obtain ⟨last, deep⟩ := deeper.height
    rw [Reach.adding]
    rcases Nat.le_total reach.height (distance + below.height) with less | more
    · rw [Nat.max_eq_right less]
      exact ⟨last, leads.trans deep⟩
    · rw [Nat.max_eq_left more]
      exact charted.height

end Reach.Charted

/-- Each location on the chain is imported by the text at the one before, and what has been recorded
for it is right. -/
structure ImportChain.Charted (loader : Loader) (chain : ImportChain) : Prop where
  imports : chain.way.IsChain fun inner outer => loader.Imports outer inner
  reaches : ∀ step ∈ chain.steps, step.reach.Charted loader step.location

namespace ImportChain.Charted

variable {loader : Loader} {chain : ImportChain} {location : String} {outer : List String}
  {depth : Nat}

theorem start (maxDepth : Nat) : (ImportChain.start maxDepth).Charted loader :=
  ⟨.nil, nofun⟩

private theorem recordSteps {below : Reach} {origin : String}
    (deeper : below.Charted loader origin) {distance : Nat} {steps : List ImportStep}
    (imports : (steps.map ImportStep.location).IsChain fun inner outer =>
      loader.Imports outer inner)
    (leads : ∀ innermost ∈ (steps.map ImportStep.location).head?,
      loader.Leads distance innermost origin)
    (reaches : ∀ step ∈ steps, step.reach.Charted loader step.location) :
    ∀ step ∈ recordSteps below distance steps, step.reach.Charted loader step.location := by
  induction steps generalizing distance with
  | nil => exact nofun
  | cons step rest later =>
      obtain ⟨next, imports⟩ := List.isChain_cons.1 imports
      have here := leads step.location rfl
      refine List.forall_mem_cons.2
        ⟨(reaches step List.mem_cons_self).adding deeper here, later imports ?_ ?_⟩
      · intro importer first
        rw [Nat.add_comm]
        exact (Loader.Leads.further (next importer first) (.here _)).trans here
      · exact fun step held => reaches step (List.mem_cons_of_mem _ held)

/-- What is recorded for the innermost import may be recorded on the whole chain. -/
theorem record (charted : chain.Charted loader) (way : chain.way = location :: outer)
    {below : Reach} (deeper : below.Charted loader location) :
    (chain.record below).Charted loader where
  imports := by
    rw [way_record]
    exact charted.imports
  reaches := by
    refine recordSteps deeper charted.imports (fun innermost first => ?_) charted.reaches
    rw [← ImportChain.way, way] at first
    exact Option.some.inj first ▸ .here _

/-- What the text at the end of a chain imports may be entered from it. On an empty chain this is any
location. -/
theorem entering (charted : chain.Charted loader)
    (imported : ∀ importer ∈ chain.way.head?, loader.Imports importer location) :
    (chain.entering location).Charted loader := by
  have recorded : (chain.recordImport location).Charted loader := by
    cases way : chain.way with
    | nil =>
        have nothing : chain.steps = [] := List.map_eq_nil_iff.1 way
        refine ⟨?_, ?_⟩
        · rw [recordImport, way_record, way]
          exact .nil
        · rw [recordImport, ImportChain.record, nothing]
          exact List.forall_mem_nil _
    | cons importer outer => exact charted.record way (.ofImport (imported importer (way ▸ rfl)))
  refine ⟨?_, List.forall_mem_cons.2 ⟨.nothing location, recorded.reaches⟩⟩
  rw [way_entering]
  exact List.isChain_cons.2 ⟨imported, charted.imports⟩

theorem way_leave (chain : ImportChain) : chain.leave.way = chain.way.tail :=
  List.map_tail

theorem leave (charted : chain.Charted loader) : chain.leave.Charted loader where
  imports := way_leave chain ▸ charted.imports.tail
  reaches := fun step held => charted.reaches step (List.mem_of_mem_tail held)

/-- What has been recorded for the innermost import is right. -/
theorem reach (charted : chain.Charted loader) (way : chain.way = location :: outer) :
    chain.reach.Charted loader location := by
  obtain ⟨steps, maxDepth⟩ := chain
  cases steps with
  | nil => cases way
  | cons step rest =>
      obtain rfl : step.location = location := List.head_eq_of_cons_eq way
      exact charted.reaches step List.mem_cons_self

/-- No location stands twice on a chain, and a chain is no longer than the longest path. -/
theorem way_short (charted : chain.Charted loader) (layered : loader.Layered depth) :
    chain.way.Nodup ∧ chain.depth ≤ depth := by
  have short := layered.path (List.isChain_reverse.2 charted.imports)
  rwa [List.nodup_reverse, List.length_reverse, length_way] at short

/-- Where imports run in no circle, a chain with enough room admits whatever the text at its end
imports. -/
theorem mayEnter (charted : chain.Charted loader) (layered : loader.Layered depth)
    (room : depth ≤ chain.maxDepth)
    (imported : ∀ importer ∈ chain.way.head?, loader.Imports importer location) :
    chain.mayEnter location = .ok () := by
  obtain ⟨distinct, short⟩ := (charted.entering imported).way_short layered
  rw [way_entering, List.nodup_cons, mem_way_iff, Bool.not_eq_true] at distinct
  rw [depth_entering] at short
  exact mayEnter_eq_ok_iff.2 ⟨distinct.1, Nat.lt_of_lt_of_le short room⟩

/-- Where imports run in no circle, what was reached below a location fits every chain with enough
room. -/
theorem fits (charted : chain.Charted loader) (layered : loader.Layered depth)
    (room : depth ≤ chain.maxDepth) (way : chain.way = location :: outer) {reach : Reach}
    (reached : reach.Charted loader location) : reach.fits chain = true := by
  have along : (outer.reverse ++ [location]).IsChain loader.Imports := by
    rw [← List.reverse_cons, ← way]
    exact List.isChain_reverse.2 charted.imports
  refine Reach.fits_iff.2 ⟨reached.whole, ?_, ?_⟩
  · obtain ⟨last, deep⟩ := reached.height
    obtain ⟨path, further, height⟩ := deep.exists_path
    have joined : (outer.reverse ++ location :: path).IsChain loader.Imports :=
      List.isChain_split.2 ⟨along, further⟩
    have long := (layered.path joined).2
    rw [List.length_append, List.length_reverse, List.length_cons, height] at long
    rw [← length_way, way, List.length_cons]
    omega
  · intro other held
    rw [← Bool.not_eq_true, ← mem_way_iff, way, List.mem_cons]
    rintro (rfl | further)
    · exact layered.acyclic other (reached.locations other held)
    · have back := (List.pairwise_append.1 (Loader.pairwise_of_isChain along)).2.2 other
        (List.mem_reverse.2 further) location (List.mem_singleton_self location)
      exact layered.acyclic location ((reached.locations other held).trans back)

end ImportChain.Charted

end RecipeGraph
