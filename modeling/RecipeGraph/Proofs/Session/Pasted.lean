/-
# Pasting a bare import

An import without a name merges what its text comes to into the level at hand. That is the same as
building the statements of the text there, in the place of the import. The statements then find more
at hand than the text has to itself: the comparison holds for texts that miss nothing, and as long as
no variable at hand gets in the way of a level that the text makes.

Again the third graph in the comparison is the one that the text comes to for its own sake. It takes
an identifier more than the statements do in place, that of its outermost level.
-/

import RecipeGraph.Proofs.Session.Inlined
import RecipeGraph.Proofs.Session.StyleNames

namespace RecipeGraph

variable {σ τ : Type}

/-- Corresponding levels have levels of the same names nested in them. -/
theorem Dag.Corresponds.childNames_eq {R : Id → Id → Prop} {dag other : Dag}
    (related : dag.Corresponds R other) :
    dag.children.values.map Dag.name = other.children.values.map Dag.name := by
  have named : List.Forall₂ (fun child child' : Dag => child.name = child'.name)
      dag.children.values other.children.values :=
    related.children.values.imp fun _ _ child => child.inside.level.name
  rwa [← List.forall₂_eq_eq_eq, List.forall₂_map_left_iff, List.forall₂_map_right_iff]

/-- Where a location is noted in a level that absorbs another one makes a difference to the locations
alone. -/
theorem Dag.merge_addImport_left (base dag : Dag) (location : String) :
    (base.addImport location).merge dag =
      { base.merge dag with imports := (base.imports.insert location).extend dag.imports } := by
  rw [merge_eq_insertAll, merge_eq_insertAll]
  rfl

/-- The work on the text of a location that a recipe imports which is compiled for its own sake. -/
def Loader.imported (loader : Loader) (maxDepth : Nat) (location : String) (recipe : Recipe) :
    Work Unit :=
  recipe.build ((Resolver.plain loader).resolveWithin (maxDepth - 1))
    ((ImportChain.start maxDepth).entering location) (.start ())

namespace Work

/-- What is alike up to a location stays so when the second builder is replaced by one at the same
point. -/
theorem AlikeBut.comp {location : String} {used : OrderedSet String} {R S : Id → Id → Prop}
    {start start' start'' : IdSupply} {work : Work σ} {middle other : Work τ}
    (alike : work.AlikeBut location used R start start' middle)
    (matched : Matched S start' start'' none none middle other) :
    work.AlikeBut location used (Relation.Comp R S) start start'' other where
  pairing := alike.pairing.comp matched.pairing
  level := by
    have last : Dag.Corresponds S { middle.level with imports := work.level.imports }
        { other.level with imports := work.level.imports } :=
      Dag.corresponds_iff.2 ⟨{ matched.level.level with imports := rfl }, matched.level.children⟩
    exact alike.level.comp last
  placed := alike.placed
  placed' := matched.placed'
  imports := by
    obtain ⟨added, imports, imports'⟩ := alike.imports
    exact ⟨added, imports, matched.level.level.imports ▸ imports'⟩

/-- Two levels that have absorbed corresponding levels are alike, up to a location that was noted in
one of them before. -/
theorem Matched.merge {R S : Id → Id → Prop} {start start' : IdSupply} {work : Work σ}
    {other : Work τ} (matched : Matched R start start' none none work other) {inner : Work σ}
    {alone : Work τ}
    (inside : Matched S work.session.supply other.session.supply none none inner alone)
    (location : String) {merged : Work σ} {merged' : Work τ}
    (level : merged.level = (work.level.addImport location).merge inner.level)
    (level' : merged'.level = other.level.merge alone.level)
    (supply : merged.session.supply = inner.session.supply)
    (supply' : merged'.session.supply = alone.session.supply) :
    merged.AlikeBut location work.level.imports (fun id id' => R id id' ∨ S id id') start start'
      merged' := by
  have pairing := matched.pairing.join inside.pairing
  have related := ((matched.level.addImport location).mono fun _ _ => .inl).merge pairing.unique
    (inside.level.mono fun _ _ => .inr)
  rw [← level, Dag.merge_addImport_left other.level alone.level, ← level'] at related
  have used := matched.level.level.imports
  have imports : merged.level.imports =
      (other.level.imports.insert location).extend alone.level.imports := related.level.imports
  have imports' : merged'.level.imports = other.level.imports.extend alone.level.imports := by
    rw [level', Dag.merge_eq_insertAll]
  rw [← imports] at related
  rw [← supply, ← supply'] at pairing
  exact {
    pairing := pairing
    level := related
    placed := by rw [level, Dag.parent_merge]; exact matched.placed
    placed' := by rw [level', Dag.parent_merge]; exact matched.placed'
    imports := ⟨alone.level.imports.members, used ▸ imports, used ▸ imports'⟩ }

/-- An import without a name is merged into the level at hand. -/
theorem placeImport_of_bare {resolve : Resolve σ} {origin : Import} (bare : origin.name = none)
    {work after : Work σ} {graph : Dag}
    (fetched : work.fetchImport resolve origin = (some graph, after)) :
    work.placeImport resolve origin = { after with level := after.level.merge graph } := by
  rw [placeImport, fetched]
  dsimp only
  rw [bare]
  rfl

section Pasted

variable {loader : Loader} {maxDepth : Nat} {location source : String} {recipe : Recipe}
  {old : List String} {start : IdSupply} {work : Work σ}

/-- What is built in place is what the statements come to for their own sake, merged into what was
there. An identifier is left out for the level that they would have had to themselves. -/
theorem Rooted.placeAll_freshId (rooted : work.Rooted maxDepth old start) (loader : Loader)
    (recipe : Recipe) (named : work.level.StylesNamed Undotted) :
    let resolve : Resolve σ := (Resolver.plain loader).resolveWithin maxDepth
    let alone := recipe.build resolve (.start maxDepth) work.session
    alone.Calm Dag.Unaided work.level.Absorbs →
      Work.placeAll resolve recipe.statements work.freshId.2 =
        alone.under work.level.merge work.found.entries := by
  intro resolve alone calm
  have built := rooted.placeAll_under loader recipe (Dag.overlay_merge rooted.tidy named) calm
  rw [Dag.merge_empty] at built
  exact built

/-- A level that has been made later has no element in common with the level at hand. -/
theorem Rooted.absorbs {alone : Work σ} (rooted : work.Rooted maxDepth old start)
    (later : alone.Rooted maxDepth old work.session.supply)
    (clear : ∀ name ∈ alone.level.children.values.map Dag.name, ∀ id,
      work.level.variableIds.get? name = some id → id ∉ work.level.children.keys) :
    work.level.Absorbs alone.level where
  apart id held := fun inside => rooted.sound.made.apart later.sound.made id
    (rooted.sound.made.elements_subset held) (later.sound.made.elements_subset inside)
  clear _ nested := clear _ (List.mem_map_of_mem nested)

/-- A text that misses nothing as an import misses nothing behind other statements either. -/
theorem Rooted.calm_build (room : 0 < maxDepth) (loaded : loader location = .ok source)
    (read : Recipe.parse source = .ok recipe) (whole : ¬ loader.Cuts maxDepth [location])
    (rooted : work.Rooted maxDepth old start)
    (quiet : ∀ diagnostic ∈ (loader.imported maxDepth location recipe).found.entries,
      diagnostic.code ≠ some .undefinedVariable ∧ diagnostic.code ≠ some .undefinedStyleTag ∧
        diagnostic.code ≠ some .unresolvedPath)
    (clear : ∀ child ∈ (loader.imported maxDepth location recipe).level.children.values,
      ∀ id, work.level.variableIds.get? child.name = some id → id ∉ work.level.children.keys) :
    let resolve : Resolve σ := (Resolver.plain loader).resolveWithin maxDepth
    (recipe.build resolve (.start maxDepth) work.session).Calm Dag.Unaided work.level.Absorbs := by
  intro resolve
  obtain ⟨_, matched⟩ := recipe.build_imported room loaded read whole (Session.start ()) work.session
  have later : (recipe.build resolve (.start maxDepth) work.session).Rooted maxDepth old
      work.session.supply :=
    (Rooted.opened maxDepth rooted.sound.session).placeAll loader recipe.statements
  constructor
  · intro diagnostic held code same
    obtain ⟨plain, tags, qualified⟩ := quiet diagnostic (matched.found ▸ held)
    rintro (rfl | rfl | rfl | rfl)
    · exact plain same
    · exact qualified same
    · exact tags same
    · exact later.sound.quiet diagnostic held same
  · apply rooted.absorbs later
    rw [← matched.level.childNames_eq]
    intro name held
    obtain ⟨child, nested, rfl⟩ := List.mem_map.1 held
    exact clear child nested

/-- A bare import comes to the same as the statements of the imported text in its place. -/
theorem Rooted.pasted_alike (room : 0 < maxDepth) (loaded : loader location = .ok source)
    (read : Recipe.parse source = .ok recipe) (whole : ¬ loader.Cuts maxDepth [location])
    (given : location ≠ "") (rooted : work.Rooted maxDepth old start)
    (named : work.level.StylesNamed Undotted) {R : Id → Id → Prop} {first : IdSupply}
    (again : Matched R first first none none work work) (place : Span) :
    let resolve : Resolve σ := (Resolver.plain loader).resolveWithin maxDepth
    let origin : Import := ⟨⟨location, place⟩, none⟩
    (recipe.build resolve (.start maxDepth) work.session).Calm Dag.Unaided work.level.Absorbs →
      ∃ S, (work.placeImport resolve origin).AlikeBut location work.level.imports S first first
        (Work.placeAll resolve recipe.statements work) := by
  intro resolve origin calm
  have here : origin.location.value = location := rfl
  obtain ⟨noted, after, before, behind, fetched⟩ :=
    fetchImport_found room loaded read given rooted.chain here
  obtain ⟨R', matched⟩ := recipe.build_imported room loaded read whole noted work.session
  rw [before] at matched
  -- The import and the statements in place are both compared with what the text comes to by itself.
  have merged := placeImport_of_bare rfl fetched
  have pasted := rooted.placeAll_freshId loader recipe named calm
  have imported : (work.placeImport resolve origin).AlikeBut location work.level.imports
      (fun id id' => R id id' ∨ R' id id') first first
      (Work.placeAll resolve recipe.statements work.freshId.2) := by
    rw [merged, pasted]
    exact again.merge matched location rfl rfl behind rfl
  -- Without the identifier left out the statements come to the same.
  have skipped : Matched R first first none none work.freshId.2 work :=
    ⟨again.pairing.later work.session.supply.next_le_take (Nat.le_refl _), again.level, rfl,
      again.placed, again.placed'⟩
  obtain ⟨_, finish⟩ := skipped.placeAll_start loader recipe.statements rooted.chain rooted.chain
  exact ⟨_, imported.comp finish⟩

end Pasted

end Work

/-- A text may be checked to import a location without a name, behind a number of statements. -/
theorem Recipe.exists_bareImport (source : String) (count : Nat) (location : String)
    (checked : (match (parseLenient source).1.statements.drop count with
      | ⟨.fetched ⟨⟨here, _⟩, none⟩, _⟩ :: _ => decide (here = location)
      | _ => false) = true) :
    ∃ place span after, (parseLenient source).1.statements =
      (parseLenient source).1.statements.take count ++
        ⟨.fetched ⟨⟨location, place⟩, none⟩, span⟩ :: after := by
  split at checked
  · next here place span after same =>
      obtain rfl := of_decide_eq_true checked
      exact ⟨place, span, after, by rw [← same, List.take_append_drop]⟩
  · cases checked

namespace Loader

variable {loader : Loader} {maxDepth : Nat} {location source : String} {recipe : Recipe}

/-- A bare import of a text that misses nothing may be replaced by the statements of the text, unless
a variable at hand stands for a level under the name of one that the text makes. -/
theorem bareImport_pastes (room : 0 < maxDepth) (loaded : loader location = .ok source)
    (read : Recipe.parse source = .ok recipe) (whole : ¬ loader.Cuts maxDepth [location])
    (given : location ≠ "")
    (quiet : ∀ diagnostic ∈ (loader.imported maxDepth location recipe).found.entries,
      diagnostic.code ≠ some .undefinedVariable ∧ diagnostic.code ≠ some .undefinedStyleTag ∧
        diagnostic.code ≠ some .unresolvedPath)
    {text : String} {before after : List (Spanned Statement)} {place span : Span}
    (written : (Recipe.parseLenient text).1.statements =
      before ++ ⟨.fetched ⟨⟨location, place⟩, none⟩, span⟩ :: after)
    (clear : ∀ child ∈ (loader.imported maxDepth location recipe).level.children.values,
      ∀ id, (loader.alone maxDepth ⟨before⟩).level.variableIds.get? child.name = some id →
        id ∉ (loader.alone maxDepth ⟨before⟩).level.children.keys) :
    loader.CompilesAlike maxDepth location (Recipe.parseLenient text).1
      ⟨before ++ (recipe.statements ++ after)⟩ := by
  have rooted := loader.alone_rooted maxDepth ⟨before⟩
  have declare : ∀ statement ∈ before, statement.value.Declares Undotted := fun statement held =>
    Recipe.parseLenient_declare text statement (written ▸ List.mem_append_left _ held)
  have named : (loader.alone maxDepth ⟨before⟩).level.StylesNamed Undotted :=
    Recipe.stylesNamed_build ((Resolver.plain_sound loader).resolveWithin maxDepth)
      (Resolver.plain_gives_undotted loader maxDepth) ⟨before⟩ declare _ _
  have calm := rooted.calm_build room loaded read whole quiet clear
  obtain ⟨_, again⟩ := loader.alone_again maxDepth ⟨before⟩
  obtain ⟨_, alike⟩ := rooted.pasted_alike room loaded read whole given named again place calm
  have same : (Recipe.parseLenient text).1 =
      ⟨before ++ ([⟨.fetched ⟨⟨location, place⟩, none⟩, span⟩] ++ after)⟩ :=
    congrArg Recipe.mk written
  rw [same]
  apply compilesAlike_of_placeAll before [_] recipe.statements after
  rw [loader.alone_append, loader.alone_append]
  exact alike

/-- A variable of the same name does not get in the way if it stands for a node. -/
theorem bareImport_pastes_of_sample :
    ∃ recipe place span after, sample "a" = .ok "n @ 'b'" ∧
      Recipe.parse "n @ 'b'" = .ok recipe ∧ recipe.locations = ["b"] ∧ ¬ sample.Cuts 2 ["a"] ∧
      (sample.imported 2 "a" recipe).found.entries = [] ∧
      (sample.imported 2 "a" recipe).level.children.values.map Dag.name = ["n"] ∧
      (Recipe.parseLenient "n = f(); @ 'a'; g(n)").1.statements =
        (Recipe.parseLenient "n = f(); @ 'a'; g(n)").1.statements.take 1 ++
          ⟨.fetched ⟨⟨"a", place⟩, none⟩, span⟩ :: after ∧
      sample.CompilesAlike 2 "a" (Recipe.parseLenient "n = f(); @ 'a'; g(n)").1
        ⟨(Recipe.parseLenient "n = f(); @ 'a'; g(n)").1.statements.take 1 ++
          (recipe.statements ++ after)⟩ := by
  have loaded : sample "a" = .ok "n @ 'b'" := by decide +kernel
  have read := Recipe.parse_of_nothing "n @ 'b'" (by decide +kernel)
  have imports : (Recipe.parseLenient "n @ 'b'").1.locations = ["b"] := by decide +kernel
  have whole : ¬ sample.Cuts 2 ["a"] := not_cuts_sample read imports
  have found : (sample.imported 2 "a" (Recipe.parseLenient "n @ 'b'").1).found.entries = [] := by
    decide +kernel
  have levels : (sample.imported 2 "a" (Recipe.parseLenient "n @ 'b'").1).level.children.values.map
      Dag.name = ["n"] := by decide +kernel
  obtain ⟨place, span, after, written⟩ :=
    Recipe.exists_bareImport "n = f(); @ 'a'; g(n)" 1 "a" (by decide +kernel)
  have nodes : (sample.alone 2 ⟨(Recipe.parseLenient "n = f(); @ 'a'; g(n)").1.statements.take
      1⟩).level.children.keys = [] := by decide +kernel
  refine ⟨_, place, span, after, loaded, read, imports, whole, found, levels, written, ?_⟩
  apply bareImport_pastes (by decide) loaded read whole (by decide) _ written
  · intro child nested id bound
    simp [nodes]
  · simp [found]

/-- An import without a location is refused before the loader is asked, so that nothing is merged. -/
theorem bareImport_of_nowhere :
    ∃ recipe, nowhere "" = .ok "f()" ∧ Recipe.parse "f()" = .ok recipe ∧ ¬ nowhere.Cuts 1 [""] ∧
      (nowhere.imported 1 "" recipe).found.entries = [] ∧
      (nowhere.imported 1 "" recipe).level.children.keys = [] ∧
      (∃ place span, (Recipe.parseLenient "@ \"\"").1.statements =
        [⟨.fetched ⟨⟨"", place⟩, none⟩, span⟩]) ∧
      ¬ nowhere.CompilesAlike 1 "" (Recipe.parseLenient "@ \"\"").1 ⟨recipe.statements⟩ := by
  have loaded : nowhere "" = .ok "f()" := by decide +kernel
  have read := Recipe.parse_of_nothing "f()" (by decide +kernel)
  have nothing : (Recipe.parseLenient "f()").1.locations = [] := by decide +kernel
  obtain ⟨place, span, after, written⟩ := Recipe.exists_bareImport "@ \"\"" 0 "" (by decide +kernel)
  rw [List.take_zero, List.nil_append] at written
  have single : (Recipe.parseLenient "@ \"\"").1.statements.length = 1 := by decide +kernel
  obtain rfl : after = [] := by
    simpa only [written, List.length_cons, Nat.add_eq_right, List.length_eq_zero_iff] using single
  refine ⟨_, loaded, read, not_cuts_of_nothing loaded read nothing, by decide +kernel,
    by decide +kernel, ⟨place, span, written⟩, fun alike => ?_⟩
  obtain ⟨permutation, same⟩ := alike (.plain nowhere) (.plain nowhere) rfl rfl [] []
  have sizes := congrArg (fun dag => dag.nodes.size) same
  rw [Dag.size_nodes_rename] at sizes
  exact absurd sizes (by decide +kernel)

end Loader

end RecipeGraph
