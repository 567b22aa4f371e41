/-
# Command-line arguments

The words of a command line name the recipe to compile and say what to do with it. Options may
stand before or behind the recipe; the value of an option is the next word, or follows an equals
sign.
-/

import RecipeGraph.Cli.Run

namespace RecipeGraph.Cli

/-- How much of what happens is shown. -/
inductive Verbosity where
  | nothing
  | errors
  | warnings
deriving DecidableEq, Repr, Inhabited

namespace Verbosity

/-- The verbosity that a word stands for. Everything from warnings on is the same here. -/
def ofWord? : String → Option Verbosity
  | "off" => some .nothing
  | "error" => some .errors
  | "warn" => some .warnings
  | "info" => some .warnings
  | "debug" => some .warnings
  | "trace" => some .warnings
  | _ => none

def showsErrors (verbosity : Verbosity) : Bool :=
  verbosity != .nothing

def showsWarnings (verbosity : Verbosity) : Bool :=
  verbosity == .warnings

end Verbosity

/-- Why the words of a command line make no sense. -/
inductive ArgumentError where
  | missingInput
  | secondInput (word : String)
  | missingValue (option : String)
  | unknownOption (word : String)
deriving DecidableEq, Repr

namespace ArgumentError

def message : ArgumentError → String
  | .missingInput => "no input file is given"
  | .secondInput word => s!"there is more than one input file: `{word}`"
  | .missingValue option => s!"the option `{option}` needs a value"
  | .unknownOption word => s!"there is no option `{word}`"

end ArgumentError

/-- A command line as far as it is read. -/
structure Arguments where
  input : Option String
  output : Option String
  config : Option String
  lenient : Bool
  logLevel : String
deriving DecidableEq, Repr

namespace Arguments

/-- What holds unless something else is said. -/
def standard : Arguments := ⟨none, none, none, false, "info"⟩

/-- Sets an option that takes a value, if there is such an option. -/
def setOption? (arguments : Arguments) (option value : String) : Option Arguments :=
  match option with
  | "-o" => some { arguments with output := some value }
  | "--output" => some { arguments with output := some value }
  | "-c" => some { arguments with config := some value }
  | "--config" => some { arguments with config := some value }
  | "--log-level" => some { arguments with logLevel := value }
  | _ => none

/-- Takes a word that is no option and no value of one. -/
def setInput (arguments : Arguments) (word : String) : Except ArgumentError Arguments :=
  match arguments.input with
  | some _ => .error (.secondInput word)
  | none => .ok { arguments with input := some word }

/-- Splits a word at its first equals sign. -/
def splitAtEquals (word : String) : String × Option String :=
  let option := word.toList.takeWhile (· != '=')
  match word.toList.drop option.length with
  | [] => (word, none)
  | _ :: value => (String.ofList option, some (String.ofList value))

/-- Reads the words that are left. -/
def readWords (arguments : Arguments) : List String → Except ArgumentError Arguments
  | [] => .ok arguments
  | word :: rest =>
    if word = "--lenient" then
      readWords { arguments with lenient := true } rest
    else if word.toList.head? ≠ some '-' then
      match arguments.setInput word with
      | .ok arguments => readWords arguments rest
      | .error failure => .error failure
    else
      match splitAtEquals word, rest with
      | (option, some value), rest =>
        match arguments.setOption? option value with
        | some arguments => readWords arguments rest
        | none => .error (.unknownOption word)
      | (option, none), value :: rest =>
        match arguments.setOption? option value with
        | some arguments => readWords arguments rest
        | none => .error (.unknownOption word)
      | (option, none), [] =>
        match arguments.setOption? option "" with
        | some _ => .error (.missingValue option)
        | none => .error (.unknownOption word)

/-- Reads a command line. -/
def read (words : List String) : Except ArgumentError Arguments :=
  readWords standard words

/-- What a command line asks for. -/
def request (arguments : Arguments) : Except ArgumentError Request :=
  match arguments.input with
  | none => .error .missingInput
  | some input => .ok ⟨input, arguments.output, arguments.config, arguments.lenient⟩

/-- How much the command line wants to see; a word that means nothing counts as `warn`. -/
def verbosity (arguments : Arguments) : Verbosity :=
  (Verbosity.ofWord? arguments.logLevel).getD .warnings

end Arguments

end RecipeGraph.Cli
