/-
# What lies outside the level

A step of building changes the level at hand, the warnings, the supply of identifiers and the log.
The chain of imports, the journal and what the resolver keeps for itself lie outside. Only imports
touch them.
-/

import RecipeGraph.Build.Statement
import RecipeGraph.Proofs.Import.Reach

namespace RecipeGraph

variable {σ : Type}

/-- The parts of the state that only imports touch. -/
structure Outside (σ : Type) where
  chain : ImportChain
  journal : List JournalEntry
  store : σ

def Work.outside (work : Work σ) : Outside σ :=
  ⟨work.chain, work.session.journal, work.session.store⟩

def Fetched.outside (fetched : Fetched σ) : Outside σ :=
  ⟨fetched.chain, fetched.session.journal, fetched.session.store⟩

/-- Imports a location under a chain that may refuse it. Afterwards the location has been left. -/
def Resolve.attempt (resolve : Resolve σ) (location : String) (chain : ImportChain)
    (session : Session σ) : Fetched σ :=
  match chain.mayEnter location with
  | .error failure => ⟨.error failure, chain.recordCut, session⟩
  | .ok () =>
    let fetched := resolve location (chain.entering location) session
    { fetched with chain := fetched.chain.leave }

namespace Resolve

variable {resolve : Resolve σ} {location : String} {chain : ImportChain} {session : Session σ}

theorem attempt_of_refused {failure : ImportError}
    (refused : chain.mayEnter location = .error failure) :
    resolve.attempt location chain session = ⟨.error failure, chain.recordCut, session⟩ := by
  rw [attempt, refused]

theorem attempt_of_admitted (admitted : chain.mayEnter location = .ok ()) :
    resolve.attempt location chain session =
      { resolve location (chain.entering location) session with
        chain := (resolve location (chain.entering location) session).chain.leave } := by
  rw [attempt, admitted]

end Resolve

namespace Work

/-- The builder imports by attempting to, and notes the location if it was admitted. -/
theorem fetch_eq (resolve : Resolve σ) (location : String) (work : Work σ) :
    work.fetch resolve location =
      let attempted := resolve.attempt location work.chain work.session
      (attempted.result,
        { work with
          level := if (work.chain.mayEnter location).isOk then work.level.addImport location
            else work.level
          chain := attempted.chain
          session := attempted.session }) := by
  unfold fetch Resolve.attempt
  cases work.chain.mayEnter location with
  | error failure => rfl
  | ok => rfl

/-- An import that is a statement and has a name is nested. -/
theorem placeImport_of_named (resolve : Resolve σ) {origin : Import} {name : Spanned String}
    (given : origin.name = some name) (work : Work σ) :
    work.placeImport resolve origin = (work.placeNestedImport resolve origin).2 := by
  unfold placeImport placeNestedImport
  rw [given]
  generalize work.fetchImport resolve origin = fetched
  obtain ⟨imported, work⟩ := fetched
  cases imported with
  | none => rfl
  | some imported => rfl

/-- The edge that connects an argument. -/
def edgeOf (id target : Id) (incoming : Incoming) : Edge :=
  ⟨id, incoming.name, incoming.source, target, incoming.style⟩

theorem supply_report (warning : Warning) (work : Work σ) :
    (work.report warning).session.supply = work.session.supply := by
  unfold report
  split
  · rfl
  · rfl

theorem store_report (warning : Warning) (work : Work σ) :
    (work.report warning).session.store = work.session.store := by
  unfold report
  split
  · rfl
  · rfl

/-! ### Steps that leave everything outside alone -/

@[simp] theorem outside_report (warning : Warning) (work : Work σ) :
    (work.report warning).outside = work.outside := by
  unfold report
  split
  · rfl
  · rfl

@[simp] theorem outside_onLevel (change : Dag → Dag) (work : Work σ) :
    (work.onLevel change).outside = work.outside := rfl

@[simp] theorem outside_openNode (name : String) (style : Option StyleBlock) (work : Work σ) :
    (work.openNode name style).2.outside = work.outside := rfl

@[simp] theorem outside_connect (target : Id) (incoming : Incoming) (work : Work σ) :
    (work.connect target incoming).outside = work.outside := by
  unfold connect
  dsimp only
  split
  · rfl
  · exact outside_report _ work.freshId.2

@[simp] theorem outside_connectAll (target : Id) (incoming : List Incoming) (work : Work σ) :
    (work.connectAll target incoming).outside = work.outside := by
  induction incoming generalizing work with
  | nil => rfl
  | cons argument rest step => rw [connectAll, step, outside_connect]

@[simp] theorem outside_lookUp (path : Spanned QualifiedPath) (work : Work σ) :
    (work.lookUp path).2.outside = work.outside := by
  unfold lookUp
  split
  · exact outside_report _ work
  · rfl

mutual

@[simp] theorem outside_gatherOne : ∀ (argument : Argument) (work : Work σ),
    (gatherOne argument work).2.outside = work.outside
  | .call ⟨⟨name, arguments, style⟩, _⟩, work =>
    (outside_connectAll _ _ _).trans (outside_gather arguments (work.openNode name.value style).2)
  | .reference path, work => outside_lookUp path work
termination_by structural argument => argument

@[simp] theorem outside_gather : ∀ (arguments : List Argument) (work : Work σ),
    (gather arguments work).2.outside = work.outside
  | [], _ => rfl
  | argument :: rest, work =>
    (outside_gather rest (gatherOne argument work).2).trans (outside_gatherOne argument work)
termination_by structural arguments => arguments

end

@[simp] theorem outside_placeCall (made : Call) (work : Work σ) :
    (work.placeCall made).2.outside = work.outside := by
  simp [placeCall]

@[simp] theorem outside_bindTargets (targets : List Target) (id : Id) (work : Work σ) :
    (work.bindTargets targets id).outside = work.outside := by
  induction targets generalizing work with
  | nil => rfl
  | cons target rest step => exact step (work.bindTarget id target)

@[simp] theorem outside_placeAlias (target : Target) (path : Spanned QualifiedPath)
    (work : Work σ) : (work.placeAlias target path).outside = work.outside := by
  unfold placeAlias
  split
  · exact outside_report _ work
  · rfl

/-- Tags that are not known are reported one by one, and nothing else happens. -/
theorem reportTags_eq (tags : List (Spanned QualifiedPath)) (work : Work σ) :
    let after := tags.foldl (fun work tag => work.report (.undefinedStyleTag tag)) work
    after.level = work.level ∧ after.found.entries = work.found.entries ++
        tags.map (fun tag => (Warning.undefinedStyleTag tag).diagnostic) ∧
      after.outside = work.outside := by
  induction tags generalizing work with
  | nil => exact ⟨rfl, (List.append_nil _).symm, rfl⟩
  | cons tag rest step =>
      obtain ⟨level, found, outside⟩ := step (work.report (.undefinedStyleTag tag))
      refine ⟨level, found.trans ?_, outside.trans (outside_report _ work)⟩
      rw [report, DiagnosticLog.emit, List.append_assoc, List.map_cons]
      rfl

@[simp] theorem outside_placeStyle (name : Spanned String) (block : StyleBlock) (work : Work σ) :
    (work.placeStyle name block).outside = work.outside :=
  (reportTags_eq (block.flatten work.level).missing work).2.2

@[simp] theorem outside_openLevel (name : Option (Spanned String)) (style : Option StyleBlock)
    (work : Work σ) : (work.openLevel name style).outside = work.outside := rfl

@[simp] theorem outside_closeLevel (outer : Dag) (incoming : List Incoming) (work : Work σ) :
    (work.closeLevel outer incoming).2.outside = work.outside :=
  outside_connectAll _ _ _

@[simp] theorem outside_adopt (imported : Dag) (name : Option (Spanned String)) (work : Work σ) :
    (work.adopt imported name).2.outside = work.outside := rfl

/-- Two lists of statements are built one after the other. -/
theorem placeAll_append (resolve : Resolve σ) (first second : List (Spanned Statement))
    (work : Work σ) :
    placeAll resolve (first ++ second) work =
      placeAll resolve second (placeAll resolve first work) := by
  induction first generalizing work with
  | nil => rfl
  | cons statement rest step =>
      rw [List.cons_append, placeAll, placeAll]
      exact step _

end Work

end RecipeGraph
