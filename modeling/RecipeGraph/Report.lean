/-
# Reports

What is shown to a user. Findings about a recipe become one report each, with labels that point into
the text of the recipe. Any other failure is a single report with nothing to point at.
-/

import RecipeGraph.Compiler
import RecipeGraph.Config

namespace RecipeGraph

/-- Why a run has no outcome. -/
inductive RunError where
  /-- A file cannot be read or written. -/
  | system (failure : SystemError)
  /-- There is no valid configuration. -/
  | config (failure : ConfigError)
  /-- The recipe cannot be compiled. -/
  | compile (failure : CompileError)
deriving DecidableEq, Repr

namespace RunError

def message : RunError → String
  | .system failure => "I/O error: " ++ failure.message
  | .config failure => "I/O error: " ++ failure.message
  | .compile failure => failure.message

end RunError

/-- A remark on a stretch of the text shown. -/
structure ReportLabel where
  offset : Nat
  length : Nat
  primary : Bool
  text : String
deriving DecidableEq, Repr, Inhabited

/-- One thing shown to a user. -/
structure Report where
  message : String
  code : Option String
  severity : Option Severity
  help : Option String
  labels : Option (List ReportLabel)
  /-- The text that the labels point into. -/
  source : Option String
deriving DecidableEq, Repr, Inhabited

namespace Report

/-- A label moved into a text of the given size. -/
def placeLabel (size : Nat) (label : Label) : ReportLabel :=
  let span := label.span.clamp size
  ⟨span.start, span.length, label.primary, label.message⟩

/-- The report on one finding about a recipe. -/
def ofDiagnostic (source : String) (diagnostic : Diagnostic) : Report where
  message := diagnostic.message
  code := diagnostic.code.map ErrorCode.label
  severity := some diagnostic.severity
  help := diagnostic.help
  labels := if diagnostic.labels.isEmpty then none
    else some (diagnostic.labels.map (placeLabel source.utf8ByteSize))
  source := some source

/-- The reports on all findings about a recipe. -/
def ofDiagnostics (source : String) (diagnostics : List Diagnostic) : List Report :=
  diagnostics.map (ofDiagnostic source)

/-- A report with nothing to point at. -/
def plain (message code : String) : Report :=
  ⟨message, some code, none, none, none, none⟩

/-- The reports on a failed run: one for each finding if the recipe cannot be read, or else one. -/
def ofError (failure : RunError) : List Report :=
  match failure with
  | .compile (.parse findings source) => ofDiagnostics source findings.diagnostics
  | .compile (.imported _) => [plain failure.message "fiz::import"]
  | .system _ => [plain failure.message "fiz::io"]
  | .config _ => [plain failure.message "fiz::io"]

end Report

end RecipeGraph
