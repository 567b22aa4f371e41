/-
# Inlining a named import

An import that is nested under a name comes to the same as a namespace of that name with the
statements of the imported text in it. The text of an import is built by itself, under the chain of
that import, and its graph then takes on another identity; the statements of a namespace are built
in place. The comparison goes through a third graph, the one that the text comes to for its own sake:
the imported graph corresponds to it as long as nothing is cut off below the import, and what is
built in the namespace is that graph under an overlay.
-/

import RecipeGraph.Proofs.Session.ButImport

namespace RecipeGraph

variable {σ : Type}

/-- In the place of an identifier that is paired, the next one that is handed out may be paired. -/
theorem Pairing.replace {R : Id → Id → Prop} {start stop start' stop' : IdSupply}
    (pairing : Pairing R start stop start' stop') {old partner : Id} (held : R old partner) :
    Pairing (fun id id' => id = stop.take.1 ∧ id' = partner ∨ id ≠ old ∧ R id id') start stop.take.2
      start' stop' where
  unique := by
    have new : ∀ id', ¬ R stop.take.1 id' := fun id' held =>
      (pairing.first _ _ held).apart stop.between_take
    constructor
    · rintro id other id' (⟨rfl, rfl⟩ | ⟨kept, here⟩) (⟨rfl, same⟩ | ⟨kept', there⟩)
      · rfl
      · exact absurd (pairing.unique.1 there held) kept'
      · exact absurd (pairing.unique.1 here (same ▸ held)) kept
      · exact pairing.unique.1 here there
    · rintro id id' other' (⟨rfl, rfl⟩ | ⟨_, here⟩) (⟨same, rfl⟩ | ⟨_, there⟩)
      · rfl
      · exact absurd there (new _)
      · exact absurd (same ▸ here) (new _)
      · exact pairing.unique.2 here there
  first := by
    rintro id id' (⟨rfl, _⟩ | ⟨_, held⟩)
    · exact stop.between_take.widen pairing.forward (Nat.le_refl _)
    · exact (pairing.first id id' held).widen (Nat.le_refl _) stop.next_le_take
  second := by
    rintro id id' (⟨_, rfl⟩ | ⟨_, held⟩)
    · exact pairing.second _ _ held
    · exact pairing.second id id' held
  forward := Nat.le_trans pairing.forward stop.next_le_take
  forward' := pairing.forward'

/-- A graph that takes on another identity still corresponds to what it corresponded to, under the
relation that pairs the new identity with the identity there. -/
theorem Dag.Corresponds.adopted {R : Id → Id → Prop} {start stop start' stop' : IdSupply}
    {dag other : Dag} (pairing : Pairing R start stop start' stop') (related : dag.Corresponds R other)
    (sound : other.SoundThroughout) (distinct : other.ids.Nodup) (id : Id) (name : String)
    (parent : Option Id) :
    (dag.reidentify id name).Corresponds
      (fun one two => one = id ∧ two = other.id ∨ one ≠ dag.id ∧ R one two)
      { other with name := name, parent := parent } := by
  have back := pairing.swap.unique
  have apart : dag.id ∉ dag.innerIds :=
    (List.nodup_cons.1 (dag.ids_eq ▸ related.flip.ids_nodup back distinct)).1
  apply related.reidentify_left (related.flip.soundThroughout back sound) pairing.unique.2
  · intro inner held id' same
    exact .inr ⟨fun root => apart (root ▸ held), same⟩
  · exact .inl ⟨rfl, rfl⟩

namespace Work

section Nested

variable {loader : Loader} {maxDepth : Nat} {location source : String} {recipe : Recipe}
  {old : List String} {start : IdSupply} {work : Work σ}

/-- What is built from an empty level under an overlay is what the statements come to for their own
sake, under that overlay. -/
theorem Rooted.placeAll_under (rooted : work.Rooted maxDepth old start) (loader : Loader)
    (recipe : Recipe) {overlaid : Dag → Dag} {silent : ErrorCode → Prop} {fits : Dag → Prop}
    (overlay : Dag.Overlay overlaid silent fits) :
    let resolve : Resolve σ := (Resolver.plain loader).resolveWithin maxDepth
    let alone := recipe.build resolve (.start maxDepth) work.session
    alone.Calm silent fits →
      Work.placeAll resolve recipe.statements
        { work.freshId.2 with level := overlaid (.empty work.freshId.1 "") } =
      alone.under overlaid work.found.entries := by
  intro resolve alone calm
  have resolves : resolve.Sound fun _ => True :=
    (Resolver.plain_sound loader).resolveWithin maxDepth
  have opened := Rooted.opened maxDepth rooted.sound.session
  have inside : { work.freshId.2 with level := overlaid (.empty work.freshId.1 "") } =
      Work.under ⟨.empty work.session.freshId.1 "", .empty, .start maxDepth, work.session.freshId.2⟩
        overlaid work.found.entries := by
    rw [← rooted.chain, under, DiagnosticLog.empty, List.append_nil]
    rfl
  rw [inside]
  exact under_placeAll resolves recipe.statements overlay opened.sound opened.tidy calm

/-- What is built in a namespace is what the statements come to for their own sake, under the name
and in the place of the namespace. -/
theorem Rooted.placeAll_openLevel (rooted : work.Rooted maxDepth old start) (loader : Loader)
    (recipe : Recipe) (name : Option (Spanned String)) :
    let resolve : Resolve σ := (Resolver.plain loader).resolveWithin maxDepth
    Work.placeAll resolve recipe.statements (work.openLevel name none) =
      (recipe.build resolve (.start maxDepth) work.session).under
        (Dag.redress (fun _ => (name.map Spanned.value).getD "") (fun _ => some work.level.id)
          fun imports => imports) work.found.entries := by
  let overlaid := Dag.redress (fun _ => (name.map Spanned.value).getD "")
    (fun _ => some work.level.id) fun imports => imports
  have overlay : Dag.Overlay overlaid (· = .malformedEdge) fun _ => True :=
    Dag.overlay_redress fun _ _ => rfl
  have opened := Rooted.opened maxDepth rooted.sound.session
  exact rooted.placeAll_under loader recipe overlay
    (opened.placeAll loader recipe.statements).sound.calm

/-- A nested import comes to the same as a namespace with the statements of the imported text. -/
theorem Rooted.nested_alike (room : 0 < maxDepth) (loaded : loader location = .ok source)
    (read : Recipe.parse source = .ok recipe) (whole : ¬ loader.Cuts maxDepth [location])
    (named : location ≠ "") (rooted : work.Rooted maxDepth old start) {R : Id → Id → Prop}
    {first : IdSupply} (again : Matched R first first none none work work) {origin : Import}
    (here : origin.location.value = location) :
    let resolve : Resolve σ := (Resolver.plain loader).resolveWithin maxDepth
    let imported := work.placeNestedImport resolve origin
    let closed := (Work.placeAll resolve recipe.statements
      (work.openLevel origin.name none)).closeLevel work.level []
    ∃ S id, imported.1 = some id ∧ S id closed.1 ∧
      imported.2.AlikeBut location work.level.imports S first first closed.2 := by
  intro resolve imported closed
  obtain ⟨noted, after, before, behind, fetched⟩ :=
    fetchImport_found room loaded read named rooted.chain here
  obtain ⟨R', matched⟩ := recipe.build_imported room loaded read whole noted work.session
  let text := (origin.name.map Spanned.value).getD ""
  let inner := recipe.build ((Resolver.plain loader).resolveWithin (maxDepth - 1))
    ((ImportChain.start maxDepth).entering location) noted
  let alone := recipe.build resolve (.start maxDepth) work.session
  have alone_rooted : alone.Rooted maxDepth old work.session.supply :=
    (Rooted.opened maxDepth rooted.sound.session).placeAll loader recipe.statements
  have adopted : imported = (some after.supply.take.1, ⟨(work.level.addImport location).attach
      (inner.level.reidentify after.supply.take.1 text), work.found, work.chain,
      after.freshId.2⟩) := by
    show placeNestedImport resolve origin work = _
    rw [placeNestedImport, fetched]
    rfl
  have nested : closed = (alone.level.id, ⟨work.level.attach { alone.level with
      name := text
      parent := some work.level.id }, ⟨work.found.entries ++ alone.found.entries⟩, alone.chain,
      alone.session⟩) := by
    show closeLevel work.level [] (Work.placeAll resolve recipe.statements
      (work.openLevel origin.name none)) = _
    rw [rooted.placeAll_openLevel loader recipe origin.name]
    rfl
  rw [before] at matched
  have child := matched.level.adopted matched.pairing alone_rooted.sound.made.sound
    alone_rooted.sound.made.distinct after.supply.take.1 text (some work.level.id)
  have pairing := again.pairing.join (matched.pairing.replace matched.level.level.id)
  rw [← behind] at pairing
  have level := ((again.level.addImport location).mono fun _ _ => .inl).attach pairing.unique
    (child.mono fun _ _ => .inr)
  rw [adopted, nested]
  exact ⟨_, _, rfl, Or.inr (Or.inl ⟨rfl, rfl⟩), pairing, level, again.placed, again.placed', [],
    rfl, rfl⟩

end Nested

end Work

namespace Work

/-- An import on the right of an assignment that comes to something is bound to the variables. -/
theorem place_assignedImport {resolve : Resolve σ} {origin : Import} {work : Work σ} {id : Id}
    (given : (work.placeNestedImport resolve origin).1 = some id) (targets : List Target)
    (span : Span) :
    place resolve (.assignment targets (.fetched ⟨origin, span⟩)) work =
      (work.placeNestedImport resolve origin).2.bindTargets targets id := by
  rw [place]
  generalize work.placeNestedImport resolve origin = placed at given
  obtain ⟨_, work⟩ := placed
  cases given
  rfl

end Work

namespace Loader

variable {loader : Loader} {maxDepth : Nat} {location source : String} {recipe : Recipe}

/-- A named import is an inlined namespace, as a statement and on the right of an assignment. -/
theorem namedImport_inlines (room : 0 < maxDepth) (loaded : loader location = .ok source)
    (read : Recipe.parse source = .ok recipe) (whole : ¬ loader.Cuts maxDepth [location])
    (named : location ≠ "") (before after : List (Spanned Statement)) (place span : Span) :
    (∀ name : Spanned String, loader.CompilesAlike maxDepth location
      ⟨before ++ ⟨.fetched ⟨⟨location, place⟩, some name⟩, span⟩ :: after⟩
      ⟨before ++ ⟨.level ⟨some name, recipe.statements, [], none⟩, span⟩ :: after⟩) ∧
    ∀ (targets : List Target) (name : Option (Spanned String)) (inner inner' : Span),
      loader.CompilesAlike maxDepth location
        ⟨before ++ ⟨.assignment targets (.fetched ⟨⟨⟨location, place⟩, name⟩, inner⟩), span⟩ :: after⟩
        ⟨before ++ ⟨.assignment targets (.level ⟨⟨name, recipe.statements, [], none⟩, inner'⟩), span⟩ ::
          after⟩ := by
  obtain ⟨R, again⟩ := loader.alone_again maxDepth ⟨before⟩
  have nested : ∀ origin : Import, origin.location.value = location → _ := fun origin here =>
    (loader.alone_rooted maxDepth ⟨before⟩).nested_alike room loaded read whole named again here
  constructor
  · intro name
    obtain ⟨S, _, _, _, alike⟩ := nested ⟨⟨location, place⟩, some name⟩ rfl
    rw [← Work.placeImport_of_named _ rfl] at alike
    apply compilesAlike_of_placeAll before [_] [_] after
    rw [loader.alone_append, loader.alone_append]
    exact alike
  · intro targets name inner inner'
    obtain ⟨S, id, given, same, alike⟩ := nested ⟨⟨location, place⟩, name⟩ rfl
    have bound := alike.bindTargets same targets
    rw [← Work.place_assignedImport given targets inner] at bound
    apply compilesAlike_of_placeAll before [_] [_] after
    rw [loader.alone_append, loader.alone_append]
    exact bound

/-- Two imports fit into the depth below which nothing of the sample is cut off. -/
theorem not_cuts_sample (read : Recipe.parse "n @ 'b'" = .ok recipe)
    (imports : recipe.locations = ["b"]) : ¬ sample.Cuts 2 ["a"] := by
  have loaded : sample "a" = .ok "n @ 'b'" := by decide +kernel
  have loaded' : sample "b" = .ok "f()" := by decide +kernel
  obtain ⟨inner, read', nothing⟩ := Recipe.exists_parse "f()" [] (by decide +kernel)
  have admitted : ¬ CutOff 2 ["a"] "b" := by
    rw [CutOff]
    decide
  rw [cuts_iff loaded read, imports]
  simp [admitted, not_cuts_of_nothing loaded' read' nothing]

theorem namedImport_inlines_of_sample :
    ∃ source recipe, sample "a" = .ok source ∧ Recipe.parse source = .ok recipe ∧
      recipe.locations = ["b"] ∧ ¬ sample.Cuts 2 ["a"] ∧
      sample.CompilesAlike 2 "a" ⟨[⟨.fetched ⟨⟨"a", default⟩, some ⟨"m", default⟩⟩, default⟩]⟩
        ⟨[⟨.level ⟨some ⟨"m", default⟩, recipe.statements, [], none⟩, default⟩]⟩ := by
  have loaded : sample "a" = .ok "n @ 'b'" := by decide +kernel
  obtain ⟨recipe, read, imports⟩ :=
    Recipe.exists_parse "n @ 'b'" ["b"] (by decide +kernel)
  have whole : ¬ sample.Cuts 2 ["a"] := not_cuts_sample read imports
  exact ⟨_, recipe, loaded, read, imports, whole, (namedImport_inlines (by decide) loaded read whole
    (by decide) [] [] default default).1 ⟨"m", default⟩⟩

/-- A loader with a text at the empty location. -/
def nowhere : Loader :=
  .ofTable (.ofList [("", "f()")])

/-- An import without a location is refused before the loader is asked, so that nothing is nested. -/
theorem namedImport_of_nowhere :
    ∃ recipe, nowhere "" = .ok "f()" ∧ Recipe.parse "f()" = .ok recipe ∧ ¬ nowhere.Cuts 1 [""] ∧
      ¬ nowhere.CompilesAlike 1 "" ⟨[⟨.fetched ⟨⟨"", default⟩, some ⟨"n", default⟩⟩, default⟩]⟩
        ⟨[⟨.level ⟨some ⟨"n", default⟩, recipe.statements, [], none⟩, default⟩]⟩ := by
  obtain ⟨recipe, read, nothing⟩ := Recipe.exists_parse "f()" [] (by decide +kernel)
  have loaded : nowhere "" = .ok "f()" := by decide +kernel
  refine ⟨recipe, loaded, read, not_cuts_of_nothing loaded read nothing, fun alike => ?_⟩
  obtain ⟨permutation, same⟩ := alike (.plain nowhere) (.plain nowhere) rfl rfl [] []
  have sizes := congrArg (fun dag => dag.children.size) same
  rw [Dag.size_children_rename] at sizes
  cases sizes

end Loader

end RecipeGraph
