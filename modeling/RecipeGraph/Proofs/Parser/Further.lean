/-
# Statements are read alike further on

Statements are read with a bound on how deep they nest and lists of them with a bound on how many
turns are taken, and both come from the length of the whole text. A text that stands behind another
one is therefore read with other bounds. That makes no difference: what is read gets shorter with
every statement and with every namespace that is entered, so bounds that are not below the length of
what is left are never used up.
-/

import RecipeGraph.Proofs.Parser.Progress
import RecipeGraph.Proofs.Parser.Shift

namespace RecipeGraph.Parser

variable {α β : Type} [Placed α] [Placed β] {bytes limit least : Nat}

/-- The same reply further on. -/
def Reply.moved (bytes : Nat) (reply : Reply α) : Reply α :=
  ⟨reply.findings.map (Diagnostic.moved bytes), reply.outcome.moved bytes⟩

theorem Reply.moved_behind (items : List α) (reply : Reply (List α)) :
    (reply.behind items).moved bytes = (reply.moved bytes).behind (Placed.moved bytes items) := by
  obtain ⟨findings, outcome⟩ := reply
  cases outcome with
  | done more stop =>
      dsimp only [behind, moved, Scan.moved]
      congr 2
      exact List.map_append
  | refused => rfl
  | halted opened stop => rfl

theorem Reply.moved_afterFindings (found : List Diagnostic) (reply : Reply α) :
    (reply.afterFindings found).moved bytes =
      (reply.moved bytes).afterFindings (found.map (Diagnostic.moved bytes)) := by
  dsimp only [afterFindings, moved]
  rw [List.map_append]

/-- The second reader reads further on what the first one reads here, where no more is left than
so many characters. -/
def Reader.Follows (bytes limit : Nat) (second first : Reader α) : Prop :=
  ∀ cursor : Cursor, cursor.rest.length ≤ limit →
    second (cursor.moved bytes) = (first cursor).moved bytes

theorem Scanner.Follows.lift {item item' : Scanner α} (one : Scanner.Follows bytes item' item) :
    Reader.Follows bytes limit (Reader.ofScanner item') (Reader.ofScanner item) := by
  intro cursor _
  rw [Reader.ofScanner, Reader.ofScanner, one cursor]
  rfl

namespace Reader

section Follows

variable {first first' second second' item item' : Reader α} {next next' : α → Reader β}

theorem follows_pure (value : α) :
    Follows bytes limit (pure (Placed.moved bytes value)) (pure value) :=
  fun _ _ => rfl

/-- Behind a part that passes over some characters, so many fewer are left. -/
theorem Follows.bind_add {more : Nat} (one : Follows bytes (more + least) first' first)
    (passes : first.Advances least)
    (two : ∀ value, Follows bytes more (next' (Placed.moved bytes value)) (next value)) :
    Follows bytes (more + least) (first' >>= next') (first >>= next) := by
  intro cursor small
  have passed := passes cursor
  rw [bind_apply, bind_apply, one cursor small]
  generalize first cursor = reply at passed ⊢
  obtain ⟨found, scan⟩ := reply
  cases scan with
  | done value stop =>
      have left := passed.length_le
      have later := two value stop (by omega)
      dsimp only [Reply.moved, Scan.moved] at later ⊢
      rw [later, List.map_append]
  | refused => rfl
  | halted opened stop => rfl

theorem Follows.bind (one : Follows bytes limit first' first) (passes : first.Advances least)
    (two : ∀ value, Follows bytes limit (next' (Placed.moved bytes value)) (next value)) :
    Follows bytes limit (first' >>= next') (first >>= next) := by
  have passes' : first.Advances 0 := passes.mono (Nat.zero_le _)
  exact Follows.bind_add one passes' two

theorem Follows.map (one : Follows bytes limit item' item) {f f' : α → β}
    (same : ∀ value, f' (Placed.moved bytes value) = Placed.moved bytes (f value)) :
    Follows bytes limit (f' <$> item') (f <$> item) := by
  intro cursor small
  show (item' >>= fun value => pure (f' value)) _ =
    Reply.moved bytes ((item >>= fun value => pure (f value)) _)
  rw [bind_apply, bind_apply, one cursor small]
  obtain ⟨found, scan⟩ := item cursor
  cases scan with
  | done value stop =>
      dsimp only [Reply.moved, Scan.moved]
      rw [same, List.map_append]
      rfl
  | refused => rfl
  | halted opened stop => rfl

theorem Follows.orTry (one : Follows bytes limit first' first)
    (two : Follows bytes limit second' second) :
    Follows bytes limit (orTry first' second') (orTry first second) := by
  intro cursor small
  rw [Reader.orTry, Reader.orTry, one cursor small]
  obtain ⟨found, scan⟩ := first cursor
  cases scan with
  | done value stop => rfl
  | refused =>
      have later := two cursor small
      dsimp only [Reply.moved, Scan.moved] at later ⊢
      rw [later, List.map_append]
  | halted opened stop => rfl

theorem Follows.optional (one : Follows bytes limit item' item) :
    Follows bytes limit (optional item') (optional item) := by
  intro cursor small
  rw [Reader.optional, Reader.optional, one cursor small]
  obtain ⟨found, scan⟩ := item cursor
  cases scan with
  | done value stop => rfl
  | refused => rfl
  | halted opened stop => rfl

theorem Follows.located (one : Follows bytes limit item' item) :
    Follows bytes limit (located item') (located item) := by
  intro cursor small
  rw [Reader.located, Reader.located, one cursor small]
  obtain ⟨found, scan⟩ := item cursor
  cases scan with
  | done value stop =>
      dsimp only [Reply.moved, Scan.moved]
      rw [Cursor.spanTo_moved]
      rfl
  | refused => rfl
  | halted opened stop => rfl

end Follows

end Reader

/-! ### Turns -/

theorem unterminatedString_moved (opened : Nat) (stop : Cursor) :
    unterminatedString (opened + bytes) (stop.moved bytes) =
      (unterminatedString opened stop).moved bytes := by
  have span := Span.between_moved bytes opened stop.offset
  rw [unterminatedString, unterminatedString, Cursor.moved, span]
  rfl

theorem skipRemainder_moved (nested : Bool) (cursor : Cursor) :
    skipRemainder nested (cursor.moved bytes) = (skipRemainder nested cursor).moved bytes := by
  rw [skipRemainder, Cursor.takeWhile_moved]
  rfl

theorem skipStatement_moved (nested : Bool) (cursor : Cursor) :
    skipStatement nested (cursor.moved bytes) = (skipStatement nested cursor).moved bytes := by
  obtain ⟨rest, offset⟩ := cursor
  cases rest with
  | nil => rfl
  | cons c rest =>
      have remainder : skipRemainder nested (Cursor.moved bytes ⟨c :: rest, offset⟩) = _ :=
        skipRemainder_moved nested _
      have same : (skipRemainder nested ⟨c :: rest, offset⟩).offset + bytes = offset + bytes ↔
          (skipRemainder nested ⟨c :: rest, offset⟩).offset = offset := Nat.add_right_cancel_iff
      dsimp only [Cursor.moved] at remainder ⊢
      simp only [skipStatement, remainder, same]
      split
      · rw [Nat.add_right_comm]
      · rfl

section Turns

variable {statement statement' : Reader Statement}

theorem follows_statementEnd : Scanner.Follows bytes statementEnd statementEnd := by
  intro cursor
  rw [statementEnd, statementEnd, Cursor.skipGap_moved]
  have same : endsStatement ((cursor.skipGap isInlineBlank).moved bytes) =
      endsStatement (cursor.skipGap isInlineBlank) := rfl
  rw [same]
  split
  · rfl
  · rfl

theorem Reader.Follows.wholeStatement (one : Follows bytes limit statement' statement)
    (passes : statement.Advances least) :
    Follows bytes limit (wholeStatement statement') (wholeStatement statement) :=
  one.located.bind passes.located fun item =>
    follows_statementEnd.lift.bind advances_statementEnd.lift fun _ => follows_pure item

/-- With turns to spare, a list of statements is read alike. -/
theorem follows_statementTurns (one : Reader.Follows bytes limit statement' statement)
    (passes : statement.Advances 1) (nested : Bool) (bound bound' : Nat) (cursor : Cursor)
    (small : cursor.rest.length ≤ limit) (enough : cursor.rest.length < bound)
    (enough' : cursor.rest.length < bound') :
    statementTurns statement' nested bound' (cursor.moved bytes) =
      (statementTurns statement nested bound cursor).moved bytes := by
  induction bound generalizing bound' cursor with
  | zero => exact absurd enough (Nat.not_lt_zero _)
  | succ bound step =>
      cases bound' with
      | zero => exact absurd enough' (Nat.not_lt_zero _)
      | succ bound' =>
          have gap := (cursor.skipGap_advances isSeparator).length_le
          have start : (cursor.moved bytes).skipGap isSeparator = _ :=
            cursor.skipGap_moved isSeparator
          cases more : noMoreStatements nested (cursor.skipGap isSeparator) with
          | true =>
              rw [statementTurns_stop rfl more, statementTurns_stop start more]
              rfl
          | false =>
              have more' : noMoreStatements nested ((cursor.skipGap isSeparator).moved bytes) =
                  false := more
              have whole := one.wholeStatement passes (cursor.skipGap isSeparator) (by omega)
              have passed := passes.wholeStatement (cursor.skipGap isSeparator)
              cases read : wholeStatement statement (cursor.skipGap isSeparator) with
              | mk found scan =>
                  rw [read] at whole passed
                  cases scan with
                  | done item stop =>
                      have left := passed.length_le
                      rw [statementTurns_done rfl more read, statementTurns_done start more' whole,
                        step bound' stop (by omega) (by omega) (by omega),
                        Reply.moved_afterFindings, Reply.moved_behind]
                      rfl
                  | refused =>
                      have left := (skipStatement_advances nested (atEnd_of_more more)).length_le
                      rw [statementTurns_refused rfl more read,
                        statementTurns_refused start more' whole, skipStatement_moved,
                        step bound' _ (by omega) (by omega) (by omega),
                        Reply.moved_afterFindings, Cursor.spanTo_moved, List.map_append]
                      rfl
                  | halted opened stop =>
                      obtain ⟨place, before, behind, _⟩ := passed
                      have left := (before.trans behind).length_le
                      have skipped := (skipRemainder_advances nested stop).length_le
                      rw [statementTurns_halted rfl more read,
                        statementTurns_halted start more' whole, skipRemainder_moved,
                        step bound' _ (by omega) (by omega) (by omega),
                        Reply.moved_afterFindings, List.map_append, unterminatedString_moved]
                      rfl

/-- The bound on turns comes from the length of what is left, and that is the same further on. -/
theorem Reader.Follows.statementList (one : Follows bytes limit statement' statement)
    (passes : statement.Advances 1) (nested : Bool) :
    Follows bytes limit (statementList statement' nested) (statementList statement nested) :=
  fun cursor small => follows_statementTurns one passes nested _ _ cursor small
    (Nat.lt_succ_self _) (Nat.lt_succ_self _)

end Turns

/-! ### Statements -/

section Statements

open Scanner

variable {inner inner' : Reader Statement}

theorem Reader.Follows.namespaceWith (one : Reader.Follows bytes limit inner' inner)
    (passes : inner.Advances 1) :
    Reader.Follows bytes (limit + 1) (namespaceWith inner') (namespaceWith inner) := by
  refine Reader.Follows.located (Reader.Follows.bind (follows_leadingName _).lift
    (advances_leadingName _).lift fun name => ?_)
  -- Inside of the brackets, the opening one at least is behind us.
  refine Reader.Follows.bind_add (follows_exactly '[').lift (advances_exactly '[').lift fun _ => ?_
  refine (one.statementList passes true).bind (advances_statementList passes true)
    fun statements => ?_
  refine (follows_closing ']').lift.bind (advances_closing ']').lift fun _ => ?_
  refine follows_trailingArguments.lift.bind advances_trailingArguments.lift fun arguments => ?_
  refine follows_trailingStyle.lift.bind advances_trailingStyle.lift fun style => ?_
  exact Reader.follows_pure (⟨name, statements, arguments, style⟩ : Namespace)

theorem Reader.Follows.producerWith (one : Reader.Follows bytes limit inner' inner)
    (passes : inner.Advances 1) :
    Reader.Follows bytes (limit + 1) (producerWith inner') (producerWith inner) := by
  apply Reader.Follows.orTry
  · exact Scanner.Follows.lift (follows_importClause.map fun _ => rfl)
  · apply Reader.Follows.orTry
    · exact (one.namespaceWith passes).map fun _ => rfl
    · exact Scanner.Follows.lift (follows_call.map fun _ => rfl)

theorem Reader.Follows.assignmentWith (one : Reader.Follows bytes limit inner' inner)
    (passes : inner.Advances 1) :
    Reader.Follows bytes (limit + 1) (assignmentWith inner') (assignmentWith inner) := by
  have equals : Scanner.Follows bytes (do inlineGap; exactly '='; inlineGap)
      (do inlineGap; exactly '='; inlineGap) :=
    (follows_gap _).bind fun _ => (follows_exactly '=').bind fun _ => follows_gap _
  have equals' : Scanner.Advances 0 (do inlineGap; exactly '='; inlineGap) :=
    (advances_gap _).bind fun _ => (advances_exactly '=').bind fun _ => advances_gap _
  refine follows_targets.lift.bind advances_targets.lift fun lefts => ?_
  refine equals.lift.bind equals'.lift fun _ => ?_
  have produced := (one.producerWith passes).optional
  refine produced.bind (advances_producerWith passes).optional fun found => ?_
  cases found with
  | some producer =>
      have read : Reader.Follows bytes (limit + 1)
          (pure (Placed.moved bytes (Statement.assignment lefts producer)))
          (pure (Statement.assignment lefts producer)) := Reader.follows_pure _
      rw [Statement.moved_assignment] at read
      exact read
  | none => exact (follows_aliasOf lefts).lift

theorem Reader.Follows.statementWith (one : Reader.Follows bytes limit inner' inner)
    (passes : inner.Advances 1) :
    Reader.Follows bytes (limit + 1) (statementWith inner') (statementWith inner) := by
  have level : ∀ value : Spanned Namespace, Statement.level (Placed.moved bytes value).value =
      Placed.moved bytes (Statement.level value.value) :=
    fun value => (Statement.moved_level bytes value.value).symm
  apply Reader.Follows.orTry
  · exact follows_namedStyle.lift
  apply Reader.Follows.orTry
  · exact follows_styleBinding.lift
  apply Reader.Follows.orTry
  · exact Scanner.Follows.lift (follows_importClause.map fun _ => rfl)
  apply Reader.Follows.orTry
  · exact one.assignmentWith passes
  apply Reader.Follows.orTry
  · exact (one.namespaceWith passes).map level
  apply Reader.Follows.orTry
  · exact Scanner.Follows.lift (follows_call.map fun _ => rfl)
  · exact Scanner.Follows.lift (follows_qualifiedName.map fun _ => rfl)

theorem statementWithin_nil (depth offset : Nat) :
    statementWithin depth ⟨[], offset⟩ = ⟨[], .refused⟩ := by
  cases depth with
  | zero => rfl
  | succ depth => rfl

/-- Statements are read alike to every depth that is not below the length of what is left. -/
theorem follows_statementWithin (limit : Nat) {depth depth' : Nat} (deep : limit ≤ depth)
    (deep' : limit ≤ depth') :
    Reader.Follows bytes limit (fun cursor => statementWithin depth' cursor)
      fun cursor => statementWithin depth cursor := by
  induction limit generalizing depth depth' with
  | zero =>
      rintro ⟨rest, offset⟩ small
      obtain rfl := List.length_eq_zero_iff.1 (Nat.le_zero.1 small)
      show statementWithin depth' ⟨[], offset + bytes⟩ =
        Reply.moved bytes (statementWithin depth ⟨[], offset⟩)
      rw [statementWithin_nil, statementWithin_nil]
      rfl
  | succ limit step =>
      cases depth with
      | zero => exact absurd deep (Nat.not_succ_le_zero limit)
      | succ depth =>
          cases depth' with
          | zero => exact absurd deep' (Nat.not_succ_le_zero limit)
          | succ depth' =>
              exact (step (Nat.le_of_succ_le_succ deep) (Nat.le_of_succ_le_succ deep')).statementWith
                (advances_statementWithin depth)

end Statements

end RecipeGraph.Parser
