/-
# Warnings of the graph builder

Building never fails. What cannot be done is left out, and a warning says so.
-/

import RecipeGraph.Dag.Basic
import RecipeGraph.Import.Error

namespace RecipeGraph

/-- What the builder had to leave out, or found to be without effect. -/
inductive Warning where
  /-- An argument or the right-hand side of an alias is no variable of the level. -/
  | undefinedVariable (path : Spanned QualifiedPath)
  /-- A path through levels leads to no variable. -/
  | unresolvedPath (path : Spanned QualifiedPath)
  /-- A named style refers to a style that is not declared before it. -/
  | undefinedStyleTag (tag : Spanned QualifiedPath)
  /-- An edge is refused by the level. -/
  | edgeDropped (reason : DagError) (span : Span)
  /-- An import does not say where to import from. -/
  | noLocation (span : Span)
  /-- An import fails. -/
  | importFailed (reason : ImportError) (span : Span)
  /-- A statement is a variable and nothing else. -/
  | noEffect (path : Spanned QualifiedPath)
deriving Repr

namespace Warning

/-- The warning about a variable that cannot be found, plain or behind levels. -/
def unresolved (path : Spanned QualifiedPath) : Warning :=
  if path.value.isQualified then .unresolvedPath path else .undefinedVariable path

/-- The diagnostic that reports a warning. -/
def diagnostic : Warning → Diagnostic
  | .undefinedVariable ⟨path, span⟩ =>
    (Diagnostic.pointing .warning .undefinedVariable s!"undefined variable `{path}`" span
      "not bound at this level").withHelp s!"assign it first, e.g. `{path} = make()`"
  | .unresolvedPath ⟨path, span⟩ =>
    .pointing .warning .unresolvedPath s!"unresolved qualified path `{path}`" span
      "no such variable in the named level"
  | .undefinedStyleTag ⟨path, span⟩ =>
    (Diagnostic.pointing .warning .undefinedStyleTag s!"undefined style tag `{path}`" span
      "not declared before this style").withHelp
        "declare referenced styles first; the reference is skipped"
  | .edgeDropped reason span =>
    .pointing .warning .malformedEdge reason.message span "edge dropped"
  | .noLocation span =>
    (Diagnostic.pointing .warning .importFailure "import has no location" span
      "expected a quoted location").withHelp
        "write the location in quotes, e.g. `@ \"pantry\"`"
  | .importFailed reason span =>
    { Diagnostic.pointing .warning reason.code reason.message span reason.remark with
      help := reason.advice }
  | .noEffect ⟨path, span⟩ =>
    (Diagnostic.pointing .warning .noEffect s!"statement `{path}` has no effect" span
      "a bare variable adds nothing to the graph").withHelp
        s!"pass it to a call instead, e.g. `use({path})`"

/-- Whether the warning is also written to the log. A statement without effect is worth a remark on
the recipe but no line in the log. -/
def isLogged : Warning → Bool
  | .noEffect _ => false
  | _ => true

end Warning

end RecipeGraph
