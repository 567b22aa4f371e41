/-
# Warnings that do not tell of an edge

Besides the warnings that the builder gives for what it looked up in vain or failed to import, there
is one for an edge that a level refused. All others differ from it in their code, and their messages
begin with other letters, so neither the diagnostics of a recipe nor the log of a session can hold
such a report without an edge having been refused.
-/

import RecipeGraph.Build.Warning

namespace RecipeGraph

/-- The warning reports no edge that was refused, and its message cannot be taken for such a report
either. -/
structure Warning.Harmless (warning : Warning) : Prop where
  code : warning.diagnostic.code ≠ some .malformedEdge
  message : ∀ reason : DagError, warning.diagnostic.message ≠ reason.message

theorem DagError.head_message (reason : DagError) :
    reason.message.toList.head? = some 'e' ∨ reason.message.toList.head? = some 'd' := by
  cases reason with
  | missingSource edge endpoint level => exact .inl (by simp [message, toString])
  | missingTarget edge endpoint level => exact .inl (by simp [message, toString])
  | cycle level element => exact .inr (by simp [message, toString])

theorem ImportError.head_message (reason : ImportError) :
    reason.message.toList.head? = some 'c' ∨ reason.message.toList.head? = some 'f' ∨
      reason.message.toList.head? = some 'i' := by
  cases reason with
  | cycle chain =>
      left
      unfold message
      generalize " -> ".intercalate chain = way
      simp
  | unreadable location reason =>
      right; left
      unfold message
      generalize reason.message = told
      simp [toString]
  | malformed location failure =>
      right; right
      unfold message
      generalize failure.message = told
      simp [toString]
  | depthExceeded location maxDepth =>
      right; right
      unfold message
      simp [toString]
  | notFound location | unsupported location =>
      right; right
      unfold message
      simp [toString]

namespace Warning

/-- A message that begins with another letter than those about edges is not about an edge. -/
private theorem harmless_of_head {warning : Warning} {c : Char}
    (code : warning.diagnostic.code ≠ some .malformedEdge)
    (first : warning.diagnostic.message.toList.head? = some c) (notEdge : c ≠ 'e') (notDag : c ≠ 'd') :
    warning.Harmless := by
  refine ⟨code, fun reason same => ?_⟩
  rw [same] at first
  rcases reason.head_message with edge | dag
  · exact notEdge (Option.some.inj (first.symm.trans edge))
  · exact notDag (Option.some.inj (first.symm.trans dag))

theorem harmless_unresolved (path : Spanned QualifiedPath) : (unresolved path).Harmless := by
  unfold unresolved
  split
  · exact harmless_of_head (c := 'u') (by simp [diagnostic, Diagnostic.pointing])
      (by simp [diagnostic, Diagnostic.pointing, toString]) (by decide) (by decide)
  · exact harmless_of_head (c := 'u') (by simp [diagnostic, Diagnostic.pointing, Diagnostic.withHelp])
      (by simp [diagnostic, Diagnostic.pointing, Diagnostic.withHelp, toString]) (by decide)
      (by decide)

theorem harmless_undefinedStyleTag (tag : Spanned QualifiedPath) :
    (undefinedStyleTag tag).Harmless :=
  harmless_of_head (c := 'u') (by simp [diagnostic, Diagnostic.pointing, Diagnostic.withHelp])
    (by simp [diagnostic, Diagnostic.pointing, Diagnostic.withHelp, toString]) (by decide) (by decide)

theorem harmless_noLocation (span : Span) : (noLocation span).Harmless :=
  harmless_of_head (c := 'i') (by simp [diagnostic, Diagnostic.pointing, Diagnostic.withHelp])
    (by simp [diagnostic, Diagnostic.pointing, Diagnostic.withHelp]) (by decide) (by decide)

theorem harmless_importFailed (reason : ImportError) (span : Span) :
    (importFailed reason span).Harmless := by
  have code : (importFailed reason span).diagnostic.code ≠ some .malformedEdge := by
    show some reason.code ≠ some .malformedEdge
    cases reason <;> simp [ImportError.code]
  rcases reason.head_message with first | first | first
  · exact harmless_of_head code first (by decide) (by decide)
  · exact harmless_of_head code first (by decide) (by decide)
  · exact harmless_of_head code first (by decide) (by decide)

theorem harmless_noEffect (path : Spanned QualifiedPath) : (noEffect path).Harmless :=
  harmless_of_head (c := 's') (by simp [diagnostic, Diagnostic.pointing, Diagnostic.withHelp])
    (by simp [diagnostic, Diagnostic.pointing, Diagnostic.withHelp, toString]) (by decide) (by decide)

end Warning

end RecipeGraph
