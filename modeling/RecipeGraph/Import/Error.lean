/-
# Failures of imports

An import fails when its location is already being imported further up, when imports are nested too
deeply, when there is nothing at the location, when it cannot be read or is no recipe, or when
there are no imports at all where the recipe is compiled.
-/

import RecipeGraph.Diagnostic
import RecipeGraph.SystemError

namespace RecipeGraph

/-- Why an import fails. -/
inductive ImportError where
  /-- The location is already being imported; the chain ends with the location once more. -/
  | cycle (chain : List String)
  | depthExceeded (location : String) (maxDepth : Nat)
  | notFound (location : String)
  | unreadable (location : String) (reason : SystemError)
  | malformed (location : String) (failure : ParseError)
  | unsupported (location : String)
deriving DecidableEq, Repr

namespace ImportError

def message : ImportError → String
  | .cycle chain => "cyclic import: " ++ " -> ".intercalate chain
  | .depthExceeded location maxDepth =>
    s!"import of `{location}` exceeds the maximum depth of {maxDepth}"
  | .notFound location => s!"import `{location}` not found"
  | .unreadable location reason =>
    s!"failed to read import `{location}`: " ++ reason.message
  | .malformed location failure =>
    s!"import `{location}` failed to parse: " ++ failure.message
  | .unsupported location => s!"imports are not supported here (`{location}`)"

/-- The code of the warning that reports the failure. -/
def code : ImportError → ErrorCode
  | .cycle _ => .importCycle
  | .depthExceeded _ _ => .importDepth
  | _ => .importFailure

/-- What is said about the location of the import in the recipe. -/
def remark : ImportError → String
  | .cycle _ => "already being imported"
  | .depthExceeded _ _ => "nested too deeply"
  | _ => "could not be imported"

/-- What could be done about the failure, if anything. -/
def advice : ImportError → Option String
  | .depthExceeded _ _ => some "raise `imports.max_depth` in the configuration"
  | _ => none

end ImportError

end RecipeGraph
