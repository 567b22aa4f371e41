/-
# Configuration

A configuration says below which directory imported recipes are, how deep imports may be nested, and
whether compiled imports are kept. It is read from a TOML file. Anything else in the file is passed
over, but only if its numbers have a value. Without a file, and for what a file does not say, there
are defaults.
-/

import RecipeGraph.FileTree
import RecipeGraph.Import.Chain
import RecipeGraph.Toml.Document

namespace RecipeGraph

/-- How imports are resolved. -/
structure Config where
  /-- The directory that locations are relative to. -/
  root : Option String
  maxDepth : Nat
  /-- Whether compiled imports are kept. -/
  cache : Bool
deriving DecidableEq, Repr

/-- Why there is no configuration. -/
inductive ConfigError where
  /-- The text is no TOML document, or a value in it is of the wrong kind. -/
  | malformed
  | missingFile (path : String)
  | rootNotADirectory (root : String)
deriving DecidableEq, Repr

namespace ConfigError

def message : ConfigError → String
  | .malformed => "Failed to parse TOML configuration"
  | .missingFile path => "Missing configuration file: " ++ path
  | .rootNotADirectory root => s!"Validation error: import root `{root}` is not a directory"

end ConfigError

namespace Config

/-- The configuration that says nothing. -/
def standard : Config := ⟨none, ImportChain.defaultMaxDepth, true⟩

instance : Inhabited Config := ⟨standard⟩

/-- The same configuration with a root directory. -/
def withRoot (config : Config) (root : String) : Config :=
  { config with root := some root }

/-- One more than the greatest depth that can be configured: depths are words of 64 bits. -/
def depthLimit : Nat := 0x10000000000000000

/-- Takes over the root directory. -/
def readRoot (config : Config) : Toml.Value → Option Config
  | .text root => some (config.withRoot root)
  | _ => none

/-- Takes over the greatest depth, which is a whole number. -/
def readMaxDepth (config : Config) : Toml.Value → Option Config
  | .integer value =>
    if 0 ≤ value ∧ value < depthLimit then some { config with maxDepth := value.toNat } else none
  | _ => none

/-- Takes over whether compiled imports are kept. -/
def readCache (config : Config) : Toml.Value → Option Config
  | .boolean cache => some { config with cache := cache }
  | _ => none

/-- Takes over a value if there is one. -/
def readIfGiven (read : Config → Toml.Value → Option Config) (given : Option Toml.Value)
    (config : Config) : Option Config :=
  match given with
  | some value => read config value
  | none => some config

/-- The settings in their order, each one if there is a value for it. -/
def readSettings (root maxDepth cache : Option Toml.Value) : Option Config := do
  let config ← readIfGiven readRoot root standard
  let config ← readIfGiven readMaxDepth maxDepth config
  readIfGiven readCache cache config

/-- Whether the entries under other keys than the given ones can be passed over. -/
def passesOver (keys : List String) (entries : Toml.Entries) : Bool :=
  entries.all fun entry => keys.contains entry.1 || entry.2.isHeld

/-- The configuration in the section on imports. The settings may be named, or listed in order; a
list may go on behind them. A point in time says nothing about them. -/
def ofSection : Toml.Value → Option Config
  | .table _ entries =>
    if passesOver ["root", "max_depth", "cache"] entries then
      readSettings (OrderedMap.lookup "root" entries) (OrderedMap.lookup "max_depth" entries)
        (OrderedMap.lookup "cache" entries)
    else none
  | .array items => readSettings items[0]? items[1]? items[2]?
  | .moment => some standard
  | _ => none

/-- The configuration in a document. -/
def ofDocument (entries : Toml.Entries) : Option Config :=
  if passesOver ["imports"] entries then
    match OrderedMap.lookup "imports" entries with
    | some settings => ofSection settings
    | none => some standard
  else none

/-- The configuration that a text describes. A root directory has to be there. -/
def parse (files : FileView) (text : String) : Except ConfigError Config :=
  match (Toml.parse text).bind ofDocument with
  | none => .error .malformed
  | some config =>
    match config.root with
    | none => .ok config
    | some root =>
      if files.isDirectory root then .ok config else .error (.rootNotADirectory root)

/-- The configuration file of a project, seen from its directory. -/
def localPath : String := "fiz/config.toml"

end Config

end RecipeGraph
