/-
# Warnings point into the text

The builder has no positions of its own. Every warning takes its span from a part of the statement
that is being built, or from an argument that was gathered before, so warnings about a tree that
stands in a text point into that text. What is imported was read from another text; warnings about
it go to the log of the session and are not among those of the recipe.
-/

import RecipeGraph.Compiler
import RecipeGraph.Proofs.Parser.Placement

namespace RecipeGraph

variable {σ : Type} {source : String}

theorem Spanned.Stands.within {α : Type} {outer : Span} {text : String} {item : Spanned α}
    (stands : item.Stands source outer text) : item.span.Within source :=
  stands.shows.within

theorem Spanned.FaithfulLocation.within {outer : Span} {location : Spanned String}
    (faithful : location.FaithfulLocation source outer) : location.span.Within source := by
  rcases faithful with ⟨_, stands⟩ | ⟨_, _, stands⟩
  · exact stands.within
  · exact stands.within

/-- Where a warning points. -/
def Warning.span : Warning → Span
  | .undefinedVariable path => path.span
  | .unresolvedPath path => path.span
  | .undefinedStyleTag tag => tag.span
  | .edgeDropped _ span => span
  | .noLocation span => span
  | .importFailed _ span => span
  | .noEffect path => path.span

/-- A warning has one label, and it is there. -/
theorem Warning.labels_diagnostic (warning : Warning) :
    warning.diagnostic.labels.map Label.span = [warning.span] := by
  cases warning <;> rfl

theorem Warning.within_diagnostic {warning : Warning} (within : warning.span.Within source) :
    warning.diagnostic.Within source := by
  intro label held
  have here : label.span ∈ warning.diagnostic.labels.map Label.span := List.mem_map_of_mem held
  rw [warning.labels_diagnostic] at here
  rwa [List.mem_singleton.1 here]

theorem Warning.span_unresolved (path : Spanned QualifiedPath) :
    (unresolved path).span = path.span := by
  unfold unresolved
  split
  · rfl
  · rfl

theorem Flattened.missing_addTag {dag : Dag} {result : Flattened}
    {tag missing : Spanned QualifiedPath} (held : missing ∈ (addTag dag result tag).missing) :
    missing ∈ result.missing ∨ missing = tag := by
  unfold addTag at held
  split at held
  · exact .inl held
  · simpa using held

/-- What is missing of a named style are tags of its own. -/
theorem StyleBlock.flatten_missing (block : StyleBlock) (dag : Dag) :
    ∀ missing ∈ (block.flatten dag).missing, missing ∈ block.tags := by
  refine List.foldlRecOn (motive := fun result => ∀ missing ∈ result.missing, missing ∈ block.tags)
    block.tags (Flattened.addTag dag) ?_ fun result known tag held missing added => ?_
  · exact fun _ => List.not_mem_nil.elim
  · rcases Flattened.missing_addTag added with before | rfl
    · exact known missing before
    · exact held

namespace Work

/-- All warnings given so far point into the text. -/
def Points (source : String) (work : Work σ) : Prop :=
  ∀ diagnostic ∈ work.found.entries, diagnostic.Within source

/-- The step gives no warning that points anywhere but into the text. -/
def KeepsPointing (source : String) (work after : Work σ) : Prop :=
  work.Points source → after.Points source

variable {work middle after : Work σ} {outer : Span}

theorem KeepsPointing.refl (work : Work σ) : work.KeepsPointing source work := id

theorem KeepsPointing.trans (one : work.KeepsPointing source middle)
    (two : middle.KeepsPointing source after) : work.KeepsPointing source after :=
  fun points => two (one points)

/-- A step that gives no warning. -/
theorem KeepsPointing.silent (same : after.found = work.found) : work.KeepsPointing source after :=
  fun points diagnostic held => points diagnostic (same ▸ held)

theorem KeepsPointing.report {warning : Warning} (work : Work σ)
    (within : warning.span.Within source) : work.KeepsPointing source (work.report warning) := by
  intro points diagnostic held
  rcases List.mem_append.1 held with old | new
  · exact points diagnostic old
  · obtain rfl := List.mem_singleton.1 new
    exact Warning.within_diagnostic within

theorem points_connect (work : Work σ) (target : Id) {incoming : Incoming}
    (within : incoming.span.Within source) :
    work.KeepsPointing source (work.connect target incoming) := by
  unfold connect
  dsimp only
  split
  · exact .silent rfl
  · exact .trans (.silent rfl) (.report work.freshId.2 within)

theorem points_connectAll (work : Work σ) (target : Id) {incoming : List Incoming}
    (within : ∀ argument ∈ incoming, argument.span.Within source) :
    work.KeepsPointing source (work.connectAll target incoming) := by
  induction incoming generalizing work with
  | nil => exact .refl work
  | cons argument rest step =>
      obtain ⟨first, others⟩ := List.forall_mem_cons.1 within
      exact (work.points_connect target first).trans (step _ others)

/-- Arguments have been gathered that stand in the text, without a warning about anything else. -/
structure GathersPointing (source : String) (work : Work σ) (incoming : List Incoming)
    (after : Work σ) : Prop where
  keeps : work.KeepsPointing source after
  within : ∀ argument ∈ incoming, argument.span.Within source

theorem points_lookUp (work : Work σ) {path : Spanned QualifiedPath}
    (within : path.span.Within source) :
    GathersPointing source work (work.lookUp path).1.toList (work.lookUp path).2 := by
  unfold lookUp
  split
  · exact ⟨.report work (Warning.span_unresolved path ▸ within), nofun⟩
  · exact ⟨.refl work, List.forall_mem_singleton.2 within⟩

mutual

theorem points_gatherOne : ∀ (argument : Argument) (work : Work σ) (outer : Span),
    argument.Faithful source outer →
      GathersPointing source work (gatherOne argument work).1.toList (gatherOne argument work).2
  | .call ⟨⟨name, arguments, style⟩, span⟩, work, _, ⟨_, within, _, passed, _⟩ => by
      have inner := points_gather arguments (work.openNode name.value style).2 span passed
      have opened : work.KeepsPointing source (work.openNode name.value style).2 := .silent rfl
      exact ⟨(opened.trans inner.keeps).trans (points_connectAll _ _ inner.within),
        List.forall_mem_singleton.2 within⟩
  | .reference _, work, _, stands => work.points_lookUp (Spanned.Stands.within stands)
termination_by structural argument => argument

theorem points_gather : ∀ (arguments : List Argument) (work : Work σ) (outer : Span),
    Argument.listFaithful source outer arguments →
      GathersPointing source work (gather arguments work).1 (gather arguments work).2
  | [], work, _, _ => ⟨.refl work, nofun⟩
  | argument :: rest, work, outer, ⟨first, _, others⟩ => by
      have one := points_gatherOne argument work outer first
      have more := points_gather rest (gatherOne argument work).2 outer others
      exact ⟨one.keeps.trans more.keeps, List.forall_mem_append.2 ⟨one.within, more.within⟩⟩
termination_by structural arguments => arguments

end

theorem points_placeCall (work : Work σ) {made : Call} (faithful : Call.Faithful source outer made) :
    work.KeepsPointing source (work.placeCall made).2 := by
  obtain ⟨name, arguments, style⟩ := made
  have inner := points_gather arguments (work.openNode name.value style).2 outer faithful.2.1
  have opened : work.KeepsPointing source (work.openNode name.value style).2 := .silent rfl
  exact (opened.trans inner.keeps).trans (points_connectAll _ _ inner.within)

theorem points_bindTargets (targets : List Target) (id : Id) (work : Work σ) :
    work.KeepsPointing source (work.bindTargets targets id) :=
  fun points => List.foldlRecOn targets (bindTarget id) points fun _ kept _ _ => kept

theorem points_placeAlias (work : Work σ) (target : Target) {path : Spanned QualifiedPath}
    (within : path.span.Within source) :
    work.KeepsPointing source (work.placeAlias target path) := by
  unfold placeAlias
  split
  · exact .report work (Warning.span_unresolved path ▸ within)
  · exact .silent rfl

theorem points_placeStyle (work : Work σ) (name : Spanned String) {block : StyleBlock}
    (faithful : block.Faithful source outer) :
    work.KeepsPointing source (work.placeStyle name block) := by
  have missing : ∀ tag ∈ (block.flatten work.level).missing, tag.span.Within source :=
    fun tag held => (faithful tag (block.flatten_missing work.level tag held)).within
  have reported : work.KeepsPointing source ((block.flatten work.level).missing.foldl
      (fun work tag => work.report (.undefinedStyleTag tag)) work) :=
    fun points => List.foldlRecOn _ _ points fun middle kept tag held =>
      KeepsPointing.report middle (missing tag held) kept
  exact reported.trans (.silent rfl)

/-! ### Imports -/

variable (resolve : Resolve σ)

theorem found_fetch (location : String) (work : Work σ) :
    (work.fetch resolve location).2.found = work.found := by
  unfold fetch
  split
  · rfl
  · rfl

theorem points_fetchImport (work : Work σ) {fetched : Import}
    (faithful : fetched.Faithful source outer) :
    work.KeepsPointing source (work.fetchImport resolve fetched).2 := by
  have within := faithful.1.within
  unfold fetchImport
  split
  · exact .report work within
  · have same := found_fetch resolve fetched.location.value work
    generalize work.fetch resolve fetched.location.value = pair at same ⊢
    obtain ⟨result, middle⟩ := pair
    have silent : work.KeepsPointing source middle := .silent same
    cases result with
    | ok imported => exact silent
    | error failure => exact silent.trans (.report middle within)

theorem points_placeNestedImport (work : Work σ) {fetched : Import}
    (faithful : fetched.Faithful source outer) :
    work.KeepsPointing source (work.placeNestedImport resolve fetched).2 := by
  have imported := work.points_fetchImport resolve faithful
  unfold placeNestedImport
  generalize work.fetchImport resolve fetched = pair at imported
  obtain ⟨graph, middle⟩ := pair
  cases graph with
  | none => exact imported
  | some graph => exact imported.trans (.silent rfl)

theorem points_placeImport (work : Work σ) {fetched : Import}
    (faithful : fetched.Faithful source outer) :
    work.KeepsPointing source (work.placeImport resolve fetched) := by
  have imported := work.points_fetchImport resolve faithful
  unfold placeImport
  generalize work.fetchImport resolve fetched = pair at imported
  obtain ⟨graph, middle⟩ := pair
  cases graph with
  | none => exact imported
  | some graph =>
      dsimp only
      split
      · exact imported.trans (.silent rfl)
      · exact imported.trans (.silent rfl)

/-! ### Statements -/

variable {resolve}

/-- What is built inside a namespace warns about the inside, and the edges into it come from its
arguments. -/
theorem points_nest (work : Work σ) {arguments : List Argument}
    (passed : Argument.listFaithful source outer arguments) {build : Work σ → Work σ}
    (name : Option (Spanned String)) (style : Option StyleBlock)
    (inside : ∀ work : Work σ, work.KeepsPointing source (build work)) :
    let gathered := gather arguments work
    let closed := (build (gathered.2.openLevel name style)).closeLevel gathered.2.level gathered.1
    work.KeepsPointing source closed.2 := by
  intro gathered closed
  have before := points_gather arguments work outer passed
  have opened : gathered.2.KeepsPointing source (gathered.2.openLevel name style) := .silent rfl
  have attached : gathered.2.KeepsPointing source
      { build (gathered.2.openLevel name style) with
        level := gathered.2.level.attach (build (gathered.2.openLevel name style)).level } :=
    (opened.trans (inside _)).trans (.silent rfl)
  exact (before.keeps.trans attached).trans (points_connectAll _ _ before.within)

mutual

/-- Building a statement that stands in the text gives warnings that point into it. -/
theorem points_place : ∀ (statement : Statement) (work : Work σ) (outer : Span),
    statement.Faithful source outer → work.KeepsPointing source (place resolve statement work)
  | .call _, work, _, faithful => work.points_placeCall faithful
  | .assignment targets (.call _), work, _, ⟨_, _, _, faithful⟩ =>
    (work.points_placeCall faithful).trans (points_bindTargets targets _ _)
  | .assignment targets (.level ⟨⟨name, statements, _, style⟩, span⟩), work, _,
      ⟨_, _, _, _, inside, passed, _⟩ =>
    (work.points_nest passed name style fun work => points_placeAll statements work span inside).trans
      (points_bindTargets targets _ _)
  | .assignment targets (.fetched ⟨fetched, _⟩), work, _, ⟨_, _, _, faithful⟩ => by
      have placed := work.points_placeNestedImport resolve faithful
      rw [place]
      generalize work.placeNestedImport resolve fetched = pair at placed
      obtain ⟨id, middle⟩ := pair
      cases id with
      | none => exact placed
      | some id => exact placed.trans (points_bindTargets targets id middle)
  | .alias target _, work, _, ⟨_, stands⟩ => work.points_placeAlias target stands.within
  | .namedStyle name _, work, _, ⟨_, faithful⟩ => work.points_placeStyle name faithful
  | .styleBinding _ _, _, _, _ => .silent rfl
  | .level ⟨name, statements, _, style⟩, work, outer, ⟨_, inside, passed, _⟩ =>
    work.points_nest passed name style fun work => points_placeAll statements work outer inside
  | .fetched _, work, _, faithful => work.points_placeImport resolve faithful
  | .reference _, work, _, stands => .report work (Spanned.Stands.within stands)
termination_by structural statement => statement

theorem points_placeAll : ∀ (statements : List (Spanned Statement)) (work : Work σ) (outer : Span),
    Statement.listFaithful source outer statements →
      work.KeepsPointing source (placeAll resolve statements work)
  | [], work, _, _ => .refl work
  | ⟨statement, span⟩ :: rest, work, outer, ⟨⟨_, _, first⟩, _, others⟩ =>
    (points_place statement work span first).trans (points_placeAll rest _ outer others)
termination_by structural statements => statements

end

end Work

/-- The warnings about a recipe that stands in a text point into the text. -/
theorem Recipe.points_build {recipe : Recipe} {outer : Span}
    (faithful : Statement.listFaithful source outer recipe.statements) (resolve : Resolve σ)
    (chain : ImportChain) (session : Session σ) :
    (recipe.build resolve chain session).Points source :=
  Work.points_placeAll recipe.statements _ outer faithful nofun

namespace Compiler

/-- Positions are faithful. What is read of a text stands in the text where its spans say, and every
label of what is found while reading or compiling it lies inside the text. -/
theorem positions_faithful (source : String) :
    Statement.listFaithful source ⟨0, source.utf8ByteSize⟩
        (Recipe.parseLenient source).1.statements ∧
      (∀ diagnostic ∈ (Recipe.parseLenient source).2, diagnostic.Within source) ∧
      ∀ {σ : Type} (compiler : Compiler σ) (session : Session σ),
        ∀ diagnostic ∈ (compiler.compileLenient source session).1.diagnostics,
          diagnostic.Within source := by
  obtain ⟨faithful, points⟩ := Recipe.parseLenient_faithful source
  refine ⟨faithful, points, fun compiler session diagnostic held => ?_⟩
  rcases List.mem_append.1 held with read | built
  · exact points diagnostic read
  · exact Recipe.points_build faithful _ _ _ diagnostic built

/-- Offsets count bytes, in the comment in front as well as in the string that is not closed. -/
theorem positions_faithful_of_cream :
    (Recipe.parseLenient "// crème\na = f(b.c)\nd @ 'é").1.statements.map Spanned.span =
        [⟨10, 20⟩] ∧
      ∃ diagnostic ∈ (Recipe.parseLenient "// crème\na = f(b.c)\nd @ 'é").2,
        diagnostic.labels.map Label.span = [⟨25, 28⟩] ∧
          diagnostic.Within "// crème\na = f(b.c)\nd @ 'é" := by
  obtain ⟨_, points, _⟩ := positions_faithful "// crème\na = f(b.c)\nd @ 'é"
  have found : (Recipe.parseLenient "// crème\na = f(b.c)\nd @ 'é").2 =
      [Parser.unterminatedString 25 ⟨[], 28⟩] := by decide +kernel
  rw [found] at points ⊢
  exact ⟨by decide +kernel, _, .head _, rfl, points _ (.head _)⟩

end Compiler

end RecipeGraph
