/-
# Building statements

Statements are built in the order in which they are written. Each changes the level at hand and
nothing that was built before it. A namespace is built like a recipe of its own, in a level that
sees nothing of the one around it; its arguments are looked up before it exists.
-/

import RecipeGraph.Build.Work
import RecipeGraph.Dag.Merge

namespace RecipeGraph

namespace Work

variable {σ : Type}

/-- An import that is a statement: nested in the level if it is named, merged into it if not. -/
def placeImport (resolve : Resolve σ) (source : Import) (work : Work σ) : Work σ :=
  match work.fetchImport resolve source with
  | (none, work) => work
  | (some imported, work) =>
    match source.name with
    | some _ => (work.adopt imported source.name).2
    | none => work.onLevel fun level => level.merge imported

mutual

/-- Builds one statement. -/
def place (resolve : Resolve σ) : Statement → Work σ → Work σ
  | .call made, work => (work.placeCall made).2
  | .assignment targets (.call made), work =>
    let (id, work) := work.placeCall made.value
    work.bindTargets targets id
  | .assignment targets (.level ⟨⟨name, statements, arguments, style⟩, _⟩), work =>
    let (incoming, work) := gather arguments work
    let inner := placeAll resolve statements (work.openLevel name style)
    let (id, work) := inner.closeLevel work.level incoming
    work.bindTargets targets id
  | .assignment targets (.fetched source), work =>
    match work.placeNestedImport resolve source.value with
    | (none, work) => work
    | (some id, work) => work.bindTargets targets id
  | .alias target path, work => work.placeAlias target path
  | .namedStyle name style, work => work.placeStyle name style
  | .styleBinding keyword tags, work => work.placeBinding keyword tags
  | .level ⟨name, statements, arguments, style⟩, work =>
    let (incoming, work) := gather arguments work
    let inner := placeAll resolve statements (work.openLevel name style)
    (inner.closeLevel work.level incoming).2
  | .fetched source, work => work.placeImport resolve source
  | .reference path, work => work.report (.noEffect path)
termination_by structural statement => statement

/-- Builds statements one after the other. -/
def placeAll (resolve : Resolve σ) : List (Spanned Statement) → Work σ → Work σ
  | [], work => work
  | ⟨statement, _⟩ :: rest, work => placeAll resolve rest (place resolve statement work)
termination_by structural statements => statements

end

end Work

namespace Recipe

variable {σ : Type}

/-- Builds the graph of a recipe under a chain of imports. -/
def build (recipe : Recipe) (resolve : Resolve σ) (chain : ImportChain) (session : Session σ) :
    Work σ :=
  let (id, session) := session.freshId
  Work.placeAll resolve recipe.statements ⟨.empty id "", .empty, chain, session⟩

end Recipe

end RecipeGraph
