/-
# The command line

The program looks at every file that a run may ask for, lets the run decide what comes of them, and
then writes the dump and shows the reports. Which files these are follows from the request, the
configuration and the imports of the recipes themselves.
-/

import RecipeGraph.Cli.Arguments
import RecipeGraph.Recipe.Imports

namespace RecipeGraph.Cli

/-- What has been seen of the file system, by path. -/
abbrev Sightings : Type := OrderedMap String (Except SystemError FileEntry)

/-- What the sightings say about a path. Nothing is known to be where nobody has looked. -/
def Sightings.view (seen : Sightings) : FileView := fun path =>
  (seen.get? path).getD (.error .noSuchFile)

/-- Why reading or writing a file has failed. The number of a failure comes with either sign. -/
def systemError : IO.Error → SystemError
  | .inappropriateType _ number _ =>
    if number = 20 ∨ number = 0 - 20 then .notADirectory else .isADirectory
  | .permissionDenied _ _ _ => .permissionDenied
  | .userError _ => .notText
  | _ => .noSuchFile

/-- What stands at a path from which no text can be read. -/
def entryOfFailure : SystemError → Except SystemError FileEntry
  | .isADirectory => .ok .directory
  | .permissionDenied => .ok (.unreadable .permission)
  | .notText => .ok (.unreadable .encoding)
  | failure => .error failure

/-- Looks at a path, once. -/
def look (seen : Sightings) (path : String) : IO Sightings := do
  if seen.contains path then
    return seen
  else
    try
      return seen.insert path (.ok (.file (← IO.FS.readFile path)))
    catch failure =>
      return seen.insert path (entryOfFailure (systemError failure))

/-- The root directory that a configuration file names. -/
def namedRoot (text : String) : Option String :=
  match Config.parse (fun _ => .ok .directory) text with
  | .ok config => config.root
  | .error _ => none

/-- Looks at a configuration file and at the root directory it names. -/
def lookAtConfig (seen : Sightings) (path : String) : IO Sightings := do
  let seen ← look seen path
  match (seen.view.read path).toOption.bind namedRoot with
  | some root => look seen root
  | none => return seen

/-- Looks at the files of all recipes that a text imports, directly or not. -/
partial def lookAtImports (root : String) (seen : Sightings) (source : String) :
    IO Sightings := do
  let mut seen := seen
  for location in (Recipe.parseLenient source).1.locations do
    match FilePath.forLocation root location with
    | .error _ => pure ()
    | .ok path =>
      if !seen.contains path then
        seen ← look seen path
        match seen.view.read path with
        | .ok imported => seen ← lookAtImports root seen imported
        | .error _ => pure ()
  return seen

/-- Looks at every file that a run may ask for. -/
def lookAround (request : Request) (system : Option String) : IO Sightings := do
  let mut seen : Sightings := .empty
  for path in request.config.elim (Config.localPath :: system.toList) fun path => [path] do
    seen ← lookAtConfig seen path
  seen ← look seen request.input
  match loadConfig seen.view request.config system, seen.view.read request.input with
  | .ok config, .ok source =>
    let root := (withDefaultRoot config request.input).root.getD "."
    lookAtImports root seen source
  | _, _ => return seen

/-- Where the configuration of the user is kept. -/
def systemConfig : IO (Option String) := do
  let own ← IO.getEnv "XDG_CONFIG_HOME"
  let home ← IO.getEnv "HOME"
  let base := match own with
    | some path => if FileTree.isAbsolute path then some path else home.map (· ++ "/.config")
    | none => home.map (· ++ "/.config")
  return base.map (· ++ "/fiz/config.toml")

/-- One report in one line, with its advice in a second one. -/
def reportText (report : Report) : String :=
  let severity := (report.severity.map Severity.word).getD "error"
  let code := (report.code.map fun code => "[" ++ code ++ "]").getD ""
  let help := (report.help.map fun help => "\n  help: " ++ help).getD ""
  severity ++ code ++ ": " ++ report.message ++ help

/-- Shows reports to the user. -/
def showAll (reports : List Report) : IO Unit := do
  for report in reports do
    IO.eprintln (reportText report)

/-- Writes the dump where it is asked for, or shows it. -/
def deliver (request : Request) (outcome : Outcome) : IO (Option RunError) := do
  match request.output with
  | none =>
    IO.print outcome.dump
    return none
  | some path =>
    try
      IO.FS.writeFile path outcome.dump
      return none
    catch failure =>
      return some (.system (systemError failure))

/-- Does what a command line asks for, and says whether it worked. -/
def execute (request : Request) (verbosity : Verbosity) : IO UInt32 := do
  let system ← systemConfig
  let seen ← lookAround request system
  let failed ← match prepare seen.view system request with
    | .error failure => pure (some failure.reason)
    | .ok outcome =>
      let failed ← deliver request outcome
      if failed.isNone && verbosity.showsWarnings then
        showAll (Report.ofDiagnostics outcome.source outcome.diagnostics)
      pure failed
  match failed with
  | none => return 0
  | some reason =>
    if verbosity.showsErrors then
      showAll (Report.ofError reason)
    return 1

end RecipeGraph.Cli

open RecipeGraph.Cli in
/-- Compiles the recipe that the command line names. -/
def main (words : List String) : IO UInt32 := do
  match Arguments.read words with
  | .error failure =>
    IO.eprintln failure.message
    return 2
  | .ok arguments =>
    if (Verbosity.ofWord? arguments.logLevel).isNone then
      IO.eprintln s!"Invalid log level: {arguments.logLevel}. Using 'warn' instead."
    match arguments.request with
    | .error failure =>
      IO.eprintln failure.message
      return 2
    | .ok request => execute request arguments.verbosity
