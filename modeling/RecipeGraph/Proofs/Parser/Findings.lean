/-
# What reading finds

Reading a recipe reports nothing but stretches of text that are no statement and strings that are
not closed. In particular it never reports what only building a graph can find.
-/

import RecipeGraph.Parser
import RecipeGraph.Proofs.Parser.Turns

namespace RecipeGraph

namespace Parser

/-- A report on a stretch of text that was not understood. -/
def IsReadingError (diagnostic : Diagnostic) : Prop :=
  diagnostic.code = some .unterminatedString ∨ diagnostic.code = some .unexpectedToken

/-- Wherever it is used, the reader reports nothing but text that was not understood. -/
def Reader.FindsErrors {α : Type} (reader : Reader α) : Prop :=
  ∀ cursor, ∀ diagnostic ∈ (reader cursor).findings, IsReadingError diagnostic

namespace Reader.FindsErrors

variable {α β : Type}

theorem ofScanner (scanner : Scanner α) : (Reader.ofScanner scanner).FindsErrors :=
  fun _ _ held => nomatch held

theorem bind {first : Reader α} {next : α → Reader β} (one : first.FindsErrors)
    (two : ∀ value, (next value).FindsErrors) : Reader.FindsErrors (first >>= next) := by
  intro cursor diagnostic held
  change diagnostic ∈ (Reader.andThen first next cursor).findings at held
  have before := one cursor
  unfold Reader.andThen at held
  split at held
  · next found value stop same =>
      rw [same] at before
      exact (List.mem_append.1 held).elim (before diagnostic) (two value stop diagnostic)
  · next found same =>
      rw [same] at before
      exact before diagnostic held
  · next found opened stop same =>
      rw [same] at before
      exact before diagnostic held

theorem pure (value : α) : Reader.FindsErrors (Pure.pure value : Reader α) :=
  fun _ _ held => nomatch held

theorem map {reader : Reader α} (finds : reader.FindsErrors) (f : α → β) :
    Reader.FindsErrors (f <$> reader) :=
  finds.bind fun _ => .pure _

theorem orTry {first second : Reader α} (one : first.FindsErrors) (two : second.FindsErrors) :
    (Reader.orTry first second).FindsErrors := by
  intro cursor diagnostic held
  have before := one cursor
  unfold Reader.orTry at held
  split at held
  · next found same =>
      rw [same] at before
      exact (List.mem_append.1 held).elim (before diagnostic) (two cursor diagnostic)
  · exact before diagnostic held

theorem optional {reader : Reader α} (finds : reader.FindsErrors) :
    (Reader.optional reader).FindsErrors := by
  intro cursor diagnostic held
  have before := finds cursor
  unfold Reader.optional at held
  split at held
  all_goals
    next same =>
      rw [same] at before
      exact before diagnostic held

theorem located {reader : Reader α} (finds : reader.FindsErrors) :
    (Reader.located reader).FindsErrors := by
  intro cursor diagnostic held
  have before := finds cursor
  unfold Reader.located at held
  split at held
  all_goals
    next same =>
      rw [same] at before
      exact before diagnostic held

end Reader.FindsErrors

variable {statement : Reader Statement}

theorem Turns.findsErrors {nested : Bool} {bound : Nat} {cursor : Cursor}
    {reply : Reply (List (Spanned Statement))} (turns : Turns statement nested bound cursor reply)
    (finds : statement.FindsErrors) : ∀ diagnostic ∈ reply.findings, IsReadingError diagnostic := by
  have attempt : (wholeStatement statement).FindsErrors :=
    finds.located.bind fun _ => (Reader.FindsErrors.ofScanner _).bind fun _ => .pure _
  have found : ∀ {cursor found scan}, wholeStatement statement cursor = ⟨found, scan⟩ →
      ∀ diagnostic ∈ found, IsReadingError diagnostic := fun {cursor _ _} read diagnostic held =>
    attempt cursor diagnostic (by rwa [read])
  induction turns with
  | spent => exact nofun
  | stop => exact nofun
  | done _ read _ step => exact List.forall_mem_append.2 ⟨found read, step⟩
  | halted _ read _ step =>
      refine List.forall_mem_append.2 ⟨List.forall_mem_append.2 ⟨found read, ?_⟩, step⟩
      exact List.forall_mem_singleton.2 (.inl rfl)
  | refused _ read _ _ step =>
      refine List.forall_mem_append.2 ⟨List.forall_mem_append.2 ⟨found read, ?_⟩, step⟩
      exact List.forall_mem_singleton.2 (.inr rfl)

theorem statementTurns_findsErrors (finds : statement.FindsErrors) (nested : Bool) (bound : Nat) :
    (statementTurns statement nested bound).FindsErrors :=
  fun cursor => (turns_statementTurns statement nested bound cursor).findsErrors finds

theorem namespaceWith_findsErrors (finds : statement.FindsErrors) :
    (namespaceWith statement).FindsErrors := by
  refine .located (.bind (.ofScanner _) fun name => .bind (.ofScanner _) fun _ =>
    .bind (fun cursor => ?_) fun statements => .bind (.ofScanner _) fun _ =>
    .bind (.ofScanner _) fun arguments => .bind (.ofScanner _) fun style => .pure _)
  exact statementTurns_findsErrors finds true _ cursor

theorem assignmentWith_findsErrors (finds : statement.FindsErrors) :
    (assignmentWith statement).FindsErrors := by
  have producer : (producerWith statement).FindsErrors :=
    .orTry (.ofScanner _) (.orTry (.map (namespaceWith_findsErrors finds) _) (.ofScanner _))
  refine .bind (.ofScanner _) fun left => .bind (.ofScanner _) fun _ =>
    .bind (.optional producer) fun right => ?_
  cases right with
  | some producer => exact .pure _
  | none => exact .ofScanner _

theorem statementWith_findsErrors (finds : statement.FindsErrors) :
    (statementWith statement).FindsErrors :=
  .orTry (.ofScanner _) <| .orTry (.ofScanner _) <| .orTry (.ofScanner _) <|
    .orTry (assignmentWith_findsErrors finds) <|
    .orTry (.map (namespaceWith_findsErrors finds) _) <| .orTry (.ofScanner _) (.ofScanner _)

theorem statementWithin_findsErrors (depth : Nat) :
    Reader.FindsErrors fun cursor => statementWithin depth cursor := by
  induction depth with
  | zero => exact fun _ _ held => nomatch held
  | succ depth step => exact statementWith_findsErrors step

end Parser

namespace Recipe

/-- Whatever a text looks like, reading it reports only what was not understood. -/
theorem parseLenient_findings (source : String) :
    ∀ diagnostic ∈ (parseLenient source).2, Parser.IsReadingError diagnostic := by
  intro diagnostic held
  have found := Parser.statementTurns_findsErrors
    (Parser.statementWithin_findsErrors (Parser.Cursor.ofText source).rest.length) false
    ((Parser.Cursor.ofText source).rest.length + 1) (.ofText source)
  unfold parseLenient at held
  dsimp only at held
  split at held
  · exact found diagnostic held
  · exact found diagnostic held

/-- A text is refused with what was found while reading it. -/
theorem parse_error {source : String} {failure : ParseError}
    (refused : parse source = .error failure) :
    failure.diagnostics = (parseLenient source).2 := by
  unfold parse DiagnosticLog.finish at refused
  dsimp only at refused
  split at refused
  · nomatch refused
  · next failure' given =>
      split at given
      · rw [← Except.error.inj refused, ← Except.error.inj given]
      · nomatch given

/-- A text that is accepted is read to the same recipe leniently, and nothing worse than a warning
is found in it. -/
theorem parse_ok {source : String} {recipe : Recipe} (accepted : parse source = .ok recipe) :
    recipe = (parseLenient source).1 ∧
      ∀ diagnostic ∈ (parseLenient source).2, diagnostic.severity ≠ .error := by
  unfold parse DiagnosticLog.finish at accepted
  dsimp only at accepted
  split at accepted
  · next given =>
      split at given
      · nomatch given
      · next harmless =>
          refine ⟨(Except.ok.inj accepted).symm, fun diagnostic held error => harmless ?_⟩
          exact List.any_eq_true.2 ⟨diagnostic, held, by rw [error]; rfl⟩
  · nomatch accepted

/-- A text in which nothing is found is accepted. -/
theorem parse_of_nothing (source : String) (nothing : (parseLenient source).2 = []) :
    parse source = .ok (parseLenient source).1 := by
  unfold parse
  dsimp only
  rw [nothing]
  rfl

end Recipe

end RecipeGraph
