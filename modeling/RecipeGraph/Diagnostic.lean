/-
# Diagnostics

A diagnostic says what is wrong with a recipe, or doubtful about it, and points at the stretches of
text concerned. Errors come from reading the text, warnings from building the graph. A log gathers
diagnostics in the order in which they are found; it fails as a whole when one of them is an error.
-/

import RecipeGraph.Span

namespace RecipeGraph

/-- How bad a finding is. -/
inductive Severity where
  | error
  | warning
deriving DecidableEq, Repr, Inhabited

namespace Severity

def isError : Severity → Bool
  | .error => true
  | .warning => false

def isWarning : Severity → Bool
  | .error => false
  | .warning => true

/-- The word that opens the line of a diagnostic. -/
def word : Severity → String
  | .error => "error"
  | .warning => "warning"

end Severity

/-- The kinds of finding that have a code. Codes below 100 concern single characters, those below
300 statements, and the others the graph and its imports. -/
inductive ErrorCode where
  | unterminatedString
  | unexpectedCharacter
  | unexpectedToken
  | undefinedVariable
  | undefinedStyleTag
  | unresolvedPath
  | malformedEdge
  | importFailure
  | importCycle
  | importDepth
  | noEffect
deriving DecidableEq, Repr, Inhabited

namespace ErrorCode

/-- Every code, in the order of their numbers. -/
def all : List ErrorCode :=
  [.unterminatedString, .unexpectedCharacter, .unexpectedToken, .undefinedVariable,
    .undefinedStyleTag, .unresolvedPath, .malformedEdge, .importFailure, .importCycle,
    .importDepth, .noEffect]

/-- The code as it is printed. -/
def label : ErrorCode → String
  | .unterminatedString => "E001"
  | .unexpectedCharacter => "E002"
  | .unexpectedToken => "E100"
  | .undefinedVariable => "E300"
  | .undefinedStyleTag => "E301"
  | .unresolvedPath => "E302"
  | .malformedEdge => "E303"
  | .importFailure => "E304"
  | .importCycle => "E305"
  | .importDepth => "E306"
  | .noEffect => "E307"

/-- What the code stands for, in a few words. -/
def description : ErrorCode → String
  | .unterminatedString => "unterminated string literal"
  | .unexpectedCharacter => "unexpected character"
  | .unexpectedToken => "unexpected token"
  | .undefinedVariable => "undefined variable"
  | .undefinedStyleTag => "undefined style tag"
  | .unresolvedPath => "unresolved qualified path"
  | .malformedEdge => "malformed edge endpoint"
  | .importFailure => "import failure"
  | .importCycle => "cyclic import"
  | .importDepth => "import depth exceeded"
  | .noEffect => "statement has no effect"

/-- The code with a given printed form. -/
def ofLabel? (text : String) : Option ErrorCode :=
  all.find? fun code => code.label == text

end ErrorCode

/-- A stretch of text with a remark on it. The primary labels of a diagnostic show where the
trouble is, the secondary ones what it has to do with. -/
structure Label where
  span : Span
  message : String
  primary : Bool
deriving DecidableEq, Repr, Inhabited

/-- One finding about a recipe. -/
structure Diagnostic where
  severity : Severity
  code : Option ErrorCode
  message : String
  labels : List Label
  help : Option String
deriving DecidableEq, Repr, Inhabited

namespace Diagnostic

/-- A finding with nothing but a message. -/
def plain (severity : Severity) (message : String) : Diagnostic :=
  ⟨severity, none, message, [], none⟩

/-- A finding with a code and one primary label. -/
def pointing (severity : Severity) (code : ErrorCode) (message : String) (span : Span)
    (remark : String) : Diagnostic :=
  ⟨severity, some code, message, [⟨span, remark, true⟩], none⟩

/-- The same finding with a piece of advice. -/
def withHelp (diagnostic : Diagnostic) (help : String) : Diagnostic :=
  { diagnostic with help := some help }

/-- The line of a diagnostic: the severity, the code if there is one, and the message. -/
def render (diagnostic : Diagnostic) : String :=
  diagnostic.severity.word ++
    (match diagnostic.code with
      | some code => "[" ++ code.label ++ "]"
      | none => "") ++
    ": " ++ diagnostic.message

/-- The labels that only show what the trouble has to do with. -/
def secondaryLabels (diagnostic : Diagnostic) : List Label :=
  diagnostic.labels.filter fun label => !label.primary

end Diagnostic

/-- The failure to read a recipe: everything that was found while reading it. -/
structure ParseError where
  diagnostics : List Diagnostic
deriving DecidableEq, Repr, Inhabited

namespace ParseError

/-- The first finding, and how many more there are. -/
def message (failure : ParseError) : String :=
  match failure.diagnostics with
  | [] => ""
  | [only] => only.render
  | first :: _ :: more => first.render ++ " (+" ++ toString (more.length + 1) ++ " more)"

end ParseError

/-- The diagnostics found so far, oldest first. -/
structure DiagnosticLog where
  entries : List Diagnostic
deriving DecidableEq, Repr, Inhabited

namespace DiagnosticLog

/-- The log with nothing in it. -/
def empty : DiagnosticLog := ⟨[]⟩

/-- Adds a finding at the end. -/
def emit (log : DiagnosticLog) (diagnostic : Diagnostic) : DiagnosticLog :=
  ⟨log.entries ++ [diagnostic]⟩

/-- Whether one of the findings is an error. -/
def hasErrors (log : DiagnosticLog) : Bool :=
  log.entries.any fun diagnostic => diagnostic.severity.isError

/-- Succeeds when nothing worse than warnings was found, and else fails with every finding. -/
def finish (log : DiagnosticLog) : Except ParseError Unit :=
  if log.hasErrors then .error ⟨log.entries⟩ else .ok ()

end DiagnosticLog

end RecipeGraph
