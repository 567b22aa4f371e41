/-
# Requests answered in one session

A session answers requests one after the other, each with a depth bound of its own: to compile a
recipe that has been read, a text all of which has to be understood, as much of a text as is
understood, or the recipe at a location. What is proved of sessions is proved for every list of
requests and for the resolvers defined here.
-/

import RecipeGraph.Compiler

namespace RecipeGraph

/-- The resolvers that are ready for use. The first two work for any loader. -/
inductive Bundled where
  | plain (loader : Loader)
  | caching (loader : Loader)
  | noImports

/-- The resolver behind the choice. All of them may be given a cache; only one of them uses it. -/
def Bundled.resolver : Bundled → Resolver Cache
  | .plain loader => .plain loader
  | .caching loader => .caching loader
  | .noImports => .noImports

/-- What a compiler may be asked to compile. -/
inductive Task where
  | recipe (recipe : Recipe)
  /-- A text all of which has to be understood. -/
  | strict (source : String)
  /-- As much of a text as is understood. -/
  | lenient (source : String)
  /-- The recipe at a location. -/
  | location (location : String)

/-- A task, with the depth to which imports may be nested meanwhile. -/
structure Request where
  task : Task
  maxDepth : Nat

/-- What comes of a request: a graph or a failure, and the diagnostics beside a graph. -/
structure Answer where
  result : Except CompileError Dag
  diagnostics : List Diagnostic

namespace Answer

/-- The answer that hands over a compiled recipe. -/
def compiled (compilation : Compilation) : Answer :=
  ⟨.ok compilation.graph, compilation.diagnostics⟩

def failed (failure : CompileError) : Answer :=
  ⟨.error failure, []⟩

/-- Every diagnostic the answer shows, those of a text that was refused included. -/
def findings (answer : Answer) : List Diagnostic :=
  match answer.result with
  | .error (.parse failure _) => failure.diagnostics ++ answer.diagnostics
  | _ => answer.diagnostics

/-- Whether there is a graph, and one that passes a test. -/
def passes (answer : Answer) (test : Dag → Bool) : Bool :=
  match answer.result with
  | .ok graph => test graph
  | .error _ => false

theorem exists_of_passes {answer : Answer} {test : Dag → Bool} (passes : answer.passes test = true) :
    ∃ graph, answer.result = .ok graph ∧ test graph = true := by
  obtain ⟨result, _⟩ := answer
  cases result with
  | ok graph => exact ⟨graph, rfl, passes⟩
  | error _ => exact absurd passes Bool.false_ne_true

end Answer

variable {σ : Type}

/-- Answers one request. -/
def Request.serve (resolver : Resolver σ) (request : Request) (session : Session σ) :
    Answer × Session σ :=
  let compiler : Compiler σ := ⟨resolver, request.maxDepth⟩
  match request.task with
  | .recipe recipe =>
    let (compilation, session) := compiler.compileRecipe recipe session
    (.compiled compilation, session)
  | .strict source =>
    match compiler.compile source session with
    | (.ok compilation, session) => (.compiled compilation, session)
    | (.error failure, session) => (.failed failure, session)
  | .lenient source =>
    let (compilation, session) := compiler.compileLenient source session
    (.compiled compilation, session)
  | .location location =>
    let (result, session) := compiler.compileLocation location session
    (⟨result, []⟩, session)

/-- Answers requests one after the other. -/
def serveAll (resolver : Resolver σ) : List Request → Session σ → List Answer × Session σ
  | [], session => ([], session)
  | request :: rest, session =>
    let (answer, session) := request.serve resolver session
    let (answers, session) := serveAll resolver rest session
    (answer :: answers, session)

/-- The answers of a resolver to requests in a session of their own, and the session after them. -/
def Bundled.serve (bundled : Bundled) (requests : List Request) : List Answer × Session Cache :=
  serveAll bundled.resolver requests (.start .empty)

end RecipeGraph
