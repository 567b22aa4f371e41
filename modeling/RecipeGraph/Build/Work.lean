/-
# The level under construction

A graph is built level by level, one statement after the other. The work at hand consists of the
level being built, the warnings given so far, the chain of imports that led here, and the session.
The steps of this module are the single changes that statements are made of.
-/

import RecipeGraph.Build.Session
import RecipeGraph.Build.Warning
import RecipeGraph.Dag.Lookup
import RecipeGraph.Flatten

namespace RecipeGraph

/-- The state of building one level. -/
structure Work (σ : Type) where
  level : Dag
  found : DiagnosticLog
  chain : ImportChain
  session : Session σ

/-- An argument on its way into an element: where it comes from, and what its edge will be. -/
structure Incoming where
  source : Id
  name : String
  style : Style
  span : Span

namespace Work

variable {σ : Type}

/-- Changes the level under construction. -/
def onLevel (change : Dag → Dag) (work : Work σ) : Work σ :=
  { work with level := change work.level }

/-- Takes an identifier that nothing else has. -/
def freshId (work : Work σ) : Id × Work σ :=
  let (id, session) := work.session.freshId
  (id, { work with session := session })

/-- Gives a warning. -/
def report (warning : Warning) (work : Work σ) : Work σ :=
  { work with
    found := work.found.emit warning.diagnostic
    session := if warning.isLogged then work.session.warn warning.diagnostic.message
      else work.session }

/-- Adds a node of its own for a call. -/
def openNode (name : String) (style : Option StyleBlock) (work : Work σ) : Id × Work σ :=
  let (id, work) := work.freshId
  (id, work.onLevel fun level => level.addNode ⟨id, name, elementStyle style⟩)

/-- Adds the edge of one argument into an element. An edge that the level refuses is left out. -/
def connect (target : Id) (incoming : Incoming) (work : Work σ) : Work σ :=
  let (id, work) := work.freshId
  match work.level.addEdge ⟨id, incoming.name, incoming.source, target, incoming.style⟩ with
  | .ok level => { work with level := level }
  | .error reason => work.report (.edgeDropped reason incoming.span)

/-- Adds the edges of several arguments, in their order. -/
def connectAll (target : Id) : List Incoming → Work σ → Work σ
  | [], work => work
  | incoming :: rest, work => connectAll target rest (work.connect target incoming)

/-- Looks up the variable that an argument names. What flows from a longer path comes out of the
level that its first segment selects. -/
def lookUp (path : Spanned QualifiedPath) (work : Work σ) : Option Incoming × Work σ :=
  match work.level.producer? path.value with
  | none => (none, work.report (.unresolved path))
  | some source =>
    (some ⟨source, path.value.last?.getD "", (work.level.variableStyle? path.value).getD .plain,
      path.span⟩, work)

mutual

/-- Prepares one argument. A call becomes a node with edges of its own; a variable that is not
known is reported and left out. -/
def gatherOne : Argument → Work σ → Option Incoming × Work σ
  | .call ⟨⟨name, arguments, style⟩, span⟩, work =>
    let (id, work) := work.openNode name.value style
    let (incoming, work) := gather arguments work
    (some ⟨id, "", .plain, span⟩, work.connectAll id incoming)
  | .reference path, work => work.lookUp path
termination_by structural argument => argument

/-- Prepares several arguments, in their order. -/
def gather : List Argument → Work σ → List Incoming × Work σ
  | [], work => ([], work)
  | argument :: rest, work =>
    let (first, work) := gatherOne argument work
    let (others, work) := gather rest work
    (first.toList ++ others, work)
termination_by structural arguments => arguments

end

/-- Adds a call: its node first, then whatever its arguments need, and then its edges. -/
def placeCall (call : Call) (work : Work σ) : Id × Work σ :=
  let (id, work) := work.openNode call.name.value call.style
  let (incoming, work) := gather call.arguments work
  (id, work.connectAll id incoming)

/-- Lets a variable stand for an element, with the style declared on the variable. -/
def bindTarget (id : Id) (work : Work σ) (target : Target) : Work σ :=
  work.onLevel fun level =>
    (level.setVariable target.name.value id).setVariableStyle target.name.value
      (target.style.map fun block => elementStyle (some block))

/-- Lets several variables stand for one element. -/
def bindTargets (targets : List Target) (id : Id) (work : Work σ) : Work σ :=
  targets.foldl (bindTarget id) work

/-- Gives a variable a second name. -/
def placeAlias (target : Target) (path : Spanned QualifiedPath) (work : Work σ) : Work σ :=
  match work.level.producer? path.value with
  | none => work.report (.unresolved path)
  | some id => work.bindTarget id target

/-- Resolves and registers a named style. -/
def placeStyle (name : Spanned String) (block : StyleBlock) (work : Work σ) : Work σ :=
  let flattened := block.flatten work.level
  let work := flattened.missing.foldl (fun work tag => work.report (.undefinedStyleTag tag)) work
  work.onLevel fun level => level.setStyle name.value flattened.properties

/-- Records the tags bound to a keyword. -/
def placeBinding (keyword : Spanned String) (tags : List (Spanned QualifiedPath))
    (work : Work σ) : Work σ :=
  work.onLevel fun level => level.bindStyles keyword.value (tags.map Spanned.value)

/-- Starts a level nested in the one at hand. -/
def openLevel (name : Option (Spanned String)) (style : Option StyleBlock)
    (work : Work σ) : Work σ :=
  let (id, work) := work.freshId
  let text := (name.map Spanned.value).getD ""
  work.onLevel fun outer =>
    ((Dag.empty id text).withParent outer.id).withStyle (elementStyle style)

/-- Goes back to the outer level, nests the finished level in it and adds the edges into it. -/
def closeLevel (outer : Dag) (incoming : List Incoming) (work : Work σ) : Id × Work σ :=
  let inner := work.level
  (inner.id, ({ work with level := outer.attach inner }).connectAll inner.id incoming)

/-- Imports a location for the level at hand. The location counts as used once the chain has
admitted it, whatever comes of the import. -/
def fetch (resolve : Resolve σ) (location : String) (work : Work σ) :
    Except ImportError Dag × Work σ :=
  match work.chain.mayEnter location with
  | .error failure => (.error failure, { work with chain := work.chain.recordCut })
  | .ok () =>
    let inner := (work.chain.recordImport location).push location
    let fetched := resolve location inner work.session
    (fetched.result,
      { work with
        level := work.level.addImport location
        chain := fetched.chain.leave
        session := fetched.session })

/-- Imports what an import asks for. A failure is reported and nothing comes of it. -/
def fetchImport (resolve : Resolve σ) (source : Import) (work : Work σ) :
    Option Dag × Work σ :=
  if source.location.value.isEmpty then
    (none, work.report (.noLocation source.location.span))
  else
    match work.fetch resolve source.location.value with
    | (.ok imported, work) => (some imported, work)
    | (.error failure, work) => (none, work.report (.importFailed failure source.location.span))

/-- Nests an imported graph in the level at hand, under an identity and name of its own. -/
def adopt (imported : Dag) (name : Option (Spanned String)) (work : Work σ) : Id × Work σ :=
  let (id, work) := work.freshId
  let named := imported.reidentify id ((name.map Spanned.value).getD "")
  (id, work.onLevel fun level => level.attach named)

/-- An import on the right of an assignment, which is always nested. -/
def placeNestedImport (resolve : Resolve σ) (source : Import) (work : Work σ) :
    Option Id × Work σ :=
  match work.fetchImport resolve source with
  | (none, work) => (none, work)
  | (some imported, work) =>
    let (id, work) := work.adopt imported source.name
    (some id, work)

end Work

end RecipeGraph
