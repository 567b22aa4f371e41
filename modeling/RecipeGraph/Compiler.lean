/-
# Compiling recipes

A compiler reads a recipe and builds its graph; imports go through its resolver, nested no deeper
than it allows. Reading strictly, it refuses a text that is not understood as a whole. What is
found while building never makes it fail.
-/

import RecipeGraph.Resolver

namespace RecipeGraph

/-- A compiled recipe with everything found on the way. -/
structure Compilation where
  graph : Dag
  diagnostics : List Diagnostic

namespace Compilation

/-- Whether something worse than a warning was found. -/
def hasErrors (compilation : Compilation) : Bool :=
  (DiagnosticLog.mk compilation.diagnostics).hasErrors

end Compilation

/-- Why there is no compiled recipe. -/
inductive CompileError where
  /-- The text is not a recipe. The text is kept, since the findings point into it. -/
  | parse (failure : ParseError) (source : String)
  /-- The location compiled cannot be imported. -/
  | imported (failure : ImportError)
deriving DecidableEq, Repr

namespace CompileError

def message : CompileError → String
  | .parse failure _ => failure.message
  | .imported failure => "Import error: " ++ failure.message

end CompileError

/-- What recipes are compiled with. -/
structure Compiler (σ : Type) where
  resolver : Resolver σ
  maxDepth : Nat

namespace Compiler

variable {σ : Type}

/-- Compiles a recipe that has been read. -/
def compileRecipe (compiler : Compiler σ) (recipe : Recipe) (session : Session σ) :
    Compilation × Session σ :=
  let chain := ImportChain.start compiler.maxDepth
  let work := recipe.build (compiler.resolver.resolveUnder chain) chain session
  (⟨work.level, work.found.entries⟩, work.session)

/-- Compiles a text all of which has to be understood. -/
def compile (compiler : Compiler σ) (source : String) (session : Session σ) :
    Except CompileError Compilation × Session σ :=
  match Recipe.parse source with
  | .error failure => (.error (.parse failure source), session)
  | .ok recipe =>
    let (compilation, session) := compiler.compileRecipe recipe session
    (.ok compilation, session)

/-- Compiles as much of a text as is understood. What was found while reading comes before what
was found while building. -/
def compileLenient (compiler : Compiler σ) (source : String) (session : Session σ) :
    Compilation × Session σ :=
  let (recipe, found) := Recipe.parseLenient source
  let (compilation, session) := compiler.compileRecipe recipe session
  ({ compilation with diagnostics := found ++ compilation.diagnostics }, session)

/-- Compiles the recipe at a location as if it were imported. -/
def compileLocation (compiler : Compiler σ) (location : String) (session : Session σ) :
    Except CompileError Dag × Session σ :=
  let chain := ImportChain.start compiler.maxDepth
  match chain.enter location with
  | .error failure => (.error (.imported failure), session)
  | .ok inner =>
    let fetched := compiler.resolver.resolveUnder chain location inner session
    match fetched.result with
    | .error failure => (.error (.imported failure), fetched.session)
    | .ok graph => (.ok graph, fetched.session)

end Compiler

end RecipeGraph
