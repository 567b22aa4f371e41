/-
# One run of the command line

A run reads a recipe and writes the dump of its graph. The configuration comes from the file that
is asked for, or else from the first of two places where there is one. Imports are looked up below
the configured root, or next to the recipe if none is configured.

Everything up to the finished dump only reads files. The dump is written last, so a run that fails
has changed nothing, and one that succeeds has written the output and nothing else.
-/

import RecipeGraph.Dag.Dump
import RecipeGraph.Report

namespace RecipeGraph.Cli

/-- What a run is asked to do. -/
structure Request where
  input : String
  /-- The file for the dump; without one the dump is only handed back. -/
  output : Option String
  /-- The configuration file to use. -/
  config : Option String
  /-- Whether to skip what is not understood. -/
  lenient : Bool
deriving DecidableEq, Repr, Inhabited

/-- What a successful run has produced. -/
structure Outcome where
  source : String
  diagnostics : List Diagnostic
  dump : String
  /-- The messages of the warnings logged on the way. -/
  log : List String
deriving DecidableEq, Repr, Inhabited

/-- A run that failed, with the messages of the warnings logged before. -/
structure Failure where
  reason : RunError
  log : List String
deriving DecidableEq, Repr

/-- Reads the configuration file at a path. -/
def loadConfigFile (files : FileView) (path : String) : Except RunError Config :=
  if files.leadsSomewhere path then
    match files.read path with
    | .error failure => .error (.system failure)
    | .ok text =>
      match Config.parse files text with
      | .error failure => .error (.config failure)
      | .ok config => .ok config
  else
    .error (.config (.missingFile path))

/-- Reads the configuration that is asked for, or else the first one that is there, or else the
standard one. -/
def loadConfig (files : FileView) (asked system : Option String) : Except RunError Config :=
  match asked with
  | some path => loadConfigFile files path
  | none =>
    if files.leadsSomewhere Config.localPath then
      loadConfigFile files Config.localPath
    else
      match system with
      | some path =>
        if files.leadsSomewhere path then loadConfigFile files path else .ok .standard
      | none => .ok .standard

/-- The directory next to which imports are looked up unless one is configured. -/
def inputDirectory (input : String) : String :=
  match FilePath.parent? input.toList with
  | some directory => String.ofList directory
  | none => "."

/-- The configuration with a root directory in any case. -/
def withDefaultRoot (config : Config) (input : String) : Config :=
  match config.root with
  | some _ => config
  | none => config.withRoot (inputDirectory input)

/-- The compiler that a configuration describes. Without a root directory locations are relative
to the working directory. -/
def compilerFor (files : FileView) (config : Config) : Compiler Cache :=
  let loader := Loader.ofFiles files (config.root.getD ".")
  ⟨if config.cache then .caching loader else .plain loader, config.maxDepth⟩

/-- Compiles the recipe in the way that is asked for. -/
def compileAs (compiler : Compiler Cache) (lenient : Bool) (source : String) :
    Except CompileError Compilation × Session Cache :=
  let session := Session.start OrderedMap.empty
  if lenient then
    let (compilation, session) := compiler.compileLenient source session
    (.ok compilation, session)
  else
    compiler.compile source session

/-- Does everything but write the dump. -/
def prepare (files : FileView) (system : Option String) (request : Request) :
    Except Failure Outcome :=
  match loadConfig files request.config system with
  | .error reason => .error ⟨reason, []⟩
  | .ok config =>
    match files.read request.input with
    | .error failure => .error ⟨.system failure, []⟩
    | .ok source =>
      let compiler := compilerFor files (withDefaultRoot config request.input)
      let (result, session) := compileAs compiler request.lenient source
      match result with
      | .error failure => .error ⟨.compile failure, session.log⟩
      | .ok compilation =>
        .ok ⟨source, compilation.diagnostics, compilation.graph.dump, session.log⟩

/-- A whole run on a file system: what comes of it, and the files afterwards. -/
def runOn {σ : Type} (disk : FileSystem σ) (files : σ) (system : Option String)
    (request : Request) : Except Failure Outcome × σ :=
  match prepare (disk.view files) system request with
  | .error failure => (.error failure, files)
  | .ok outcome =>
    match request.output with
    | none => (.ok outcome, files)
    | some path =>
      match disk.write files path outcome.dump with
      | .ok written => (.ok outcome, written)
      | .error failure => (.error ⟨.system failure, outcome.log⟩, files)

/-- A whole run on a tree of files. -/
def run (tree : FileTree) (system : Option String) (request : Request) :
    Except Failure Outcome × FileTree :=
  runOn FileTree.fileSystem tree system request

end RecipeGraph.Cli
