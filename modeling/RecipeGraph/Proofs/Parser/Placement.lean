/-
# Statements keep positions

A list of statements is read turn by turn, and a turn may end in a report instead of a statement. A
report points at what lies between two places that were passed in the turn. Since the findings of a
failed attempt count as well, readers are judged by what they find anywhere in the text, and by what
they read inside a given span. A statement ends before the gap behind it, and the next turn begins
behind that gap.
-/

import RecipeGraph.Proofs.Parser.Positions

namespace RecipeGraph

namespace Parser

open Cursor

variable {α β : Type} {source : String} {outer : Span}

/-! ### Readers -/

/-- What is found points into the text, and what is read inside the given span has a property. -/
structure Reply.Fits (source : String) (outer : Span) (good : α → Prop) (cursor : Cursor)
    (reply : Reply α) : Prop where
  points : ∀ diagnostic ∈ reply.findings, diagnostic.Within source
  good : ∀ ⦃value : α⦄ ⦃stop : Cursor⦄, reply.outcome = .done value stop →
    outer.start ≤ cursor.offset → stop.offset ≤ outer.stop → good value

section Reply

variable {good : α → Prop} {reply : Reply α} {start middle : Cursor} {least : Nat}

theorem Reply.Fits.ofRefused {found : List Diagnostic}
    (points : ∀ diagnostic ∈ found, diagnostic.Within source) :
    (Reply.mk found (.refused : Scan α)).Fits source outer good start :=
  ⟨points, fun _ _ read => nomatch read⟩

theorem Reply.Fits.ofHalted {found : List Diagnostic} {opened : Nat} {stop : Cursor}
    (points : ∀ diagnostic ∈ found, diagnostic.Within source) :
    (Reply.mk found (.halted opened stop : Scan α)).Fits source outer good start :=
  ⟨points, fun _ _ read => nomatch read⟩

/-- Who goes on from a later place was able to go on from an earlier one. -/
theorem Reply.Fits.behind (passed : start.Advances least middle)
    (fits : reply.Fits source outer good middle) : reply.Fits source outer good start :=
  ⟨fits.points, fun _ _ read low high => fits.good read (Nat.le_trans low passed.offset_le) high⟩

theorem Reply.Fits.afterFindings {found : List Diagnostic}
    (points : ∀ diagnostic ∈ found, diagnostic.Within source)
    (fits : reply.Fits source outer good start) :
    (reply.afterFindings found).Fits source outer good start :=
  ⟨fun diagnostic held => (List.mem_append.1 held).elim (points diagnostic) (fits.points diagnostic),
    fits.good⟩

end Reply

/-- Wherever the reader is used in the text, what it finds and reads keeps positions. -/
structure Reader.Fits (source : String) (outer : Span) (good : α → Prop) (item : Reader α) :
    Prop where
  advances : item.Advances 0
  fits : ∀ ⦃cursor : Cursor⦄, Reached source cursor → (item cursor).Fits source outer good cursor

theorem Scanner.Fits.lift {good : α → Prop} {item : Scanner α} (fits : item.Fits source outer good) :
    (Reader.ofScanner item).Fits source outer good :=
  ⟨fits.advances.lift, fun _ reached => ⟨nofun, fun _ _ => fits.good reached⟩⟩

namespace Reader

section Rules

variable {first second item : Reader α} {next : α → Reader β} {good holds : α → Prop}

theorem Fits.pure {value : α} (held : good value) :
    Fits source outer good (Pure.pure value : Reader α) := by
  refine ⟨advances_pure value, fun cursor _ => ⟨nofun, ?_⟩⟩
  intro read stop same _ _
  cases same
  exact held

theorem Fits.bind {better : β → Prop} (one : first.Fits source outer holds)
    (two : ∀ value, (next value).Fits source outer fun result => holds value → better result) :
    Fits source outer better (first >>= next) := by
  refine ⟨one.advances.bind fun value => (two value).advances, fun cursor reached => ?_⟩
  have passed := one.advances cursor
  have here := one.fits reached
  rw [bind_apply]
  generalize first cursor = reply at passed here ⊢
  obtain ⟨found, scan⟩ := reply
  cases scan with
  | refused => exact .ofRefused here.points
  | halted opened stop => exact .ofHalted here.points
  | done before middle =>
      have later := (two before).fits (reached.on passed)
      refine ⟨fun diagnostic held => ?_, fun value stop read low high => ?_⟩
      · exact (List.mem_append.1 held).elim (here.points diagnostic) (later.points diagnostic)
      · have rest := (two before).advances middle
        rw [read] at rest
        have held := here.good rfl low (Nat.le_trans (Cursor.Advances.offset_le rest) high)
        exact later.good read (Nat.le_trans low (Cursor.Advances.offset_le passed)) high held

theorem Fits.mono (fits : item.Fits source outer holds) (more : ∀ value, holds value → good value) :
    item.Fits source outer good :=
  ⟨fits.advances, fun _ reached => ⟨(fits.fits reached).points,
    fun _ _ read low high => more _ ((fits.fits reached).good read low high)⟩⟩

theorem Fits.map {f : α → β} {better : β → Prop} (fits : item.Fits source outer holds)
    (more : ∀ value, holds value → better (f value)) : Fits source outer better (f <$> item) :=
  fits.bind fun value => .pure (more value)

/-- A scanner of which nothing needs to be known may come first. -/
theorem Fits.after {scanner : Scanner α} {least : Nat} {better : β → Prop}
    (one : scanner.Advances least) (two : ∀ value, (next value).Fits source outer better) :
    Fits source outer better (Reader.ofScanner scanner >>= next) :=
  one.fits.lift.bind fun value => (two value).mono fun _ held _ => held

theorem Fits.orTry (one : first.Fits source outer good) (two : second.Fits source outer good) :
    (Reader.orTry first second).Fits source outer good := by
  refine ⟨one.advances.orTry two.advances, fun cursor reached => ?_⟩
  have here := one.fits reached
  have there := two.fits reached
  rw [Reader.orTry]
  generalize first cursor = reply at here ⊢
  obtain ⟨found, scan⟩ := reply
  cases scan with
  | done value stop => exact here
  | halted opened stop => exact here
  | refused =>
      refine ⟨fun diagnostic held => ?_, there.good⟩
      exact (List.mem_append.1 held).elim (here.points diagnostic) (there.points diagnostic)

theorem Fits.optional (fits : item.Fits source outer good) :
    (Reader.optional item).Fits source outer fun found => ∀ value ∈ found, good value := by
  refine ⟨fits.advances.optional, fun cursor reached => ?_⟩
  have here := fits.fits reached
  rw [Reader.optional]
  generalize item cursor = reply at here ⊢
  obtain ⟨found, scan⟩ := reply
  cases scan with
  | halted opened stop => exact .ofHalted here.points
  | refused =>
      refine ⟨here.points, fun value stop read _ _ one held => ?_⟩
      cases read
      cases held
  | done one place =>
      refine ⟨here.points, fun found stop read low high value held => ?_⟩
      cases read
      obtain rfl := Option.some.inj held
      exact here.good rfl low high

theorem Fits.located {good : Span → α → Prop} (fits : ∀ span, item.Fits source span (good span)) :
    (Reader.located item).Fits source outer (Fitting source outer good) := by
  refine ⟨(fits outer).advances.located, fun cursor reached => ?_⟩
  have passed := (fits outer).advances cursor
  have here := fun span => (fits span).fits reached
  rw [Reader.located]
  generalize item cursor = reply at passed here ⊢
  obtain ⟨found, scan⟩ := reply
  cases scan with
  | refused => exact .ofRefused (here outer).points
  | halted opened stop => exact .ofHalted (here outer).points
  | done value place =>
      refine ⟨(here outer).points, fun found stop read low high => ?_⟩
      cases read
      have span := spanTo_eq passed
      refine ⟨?_, reached.within passed, ?_, (here outer).good rfl low high⟩
      · rw [span]
        exact ⟨low, high⟩
      · rw [span]
        exact (here _).good rfl (Nat.le_refl _) (Nat.le_refl _)

end Rules

end Reader

/-! ### Parts of statements -/

theorem fits_trailingArguments :
    trailingArguments.Fits source outer (Argument.listFaithful source outer) := by
  have brackets : Scanner.Fits source outer (Argument.listFaithful source outer) (do
      inlineGap
      argumentList argument) :=
    .after (Scanner.advances_gap _) fun _ => fits_argumentList fun _ => fits_argument
  refine brackets.optional.bind fun found => ?_
  cases found with
  | none => exact .pure fun _ => trivial
  | some arguments => exact .pure fun held => held arguments rfl

theorem fits_importClause :
    importClause.Fits source outer (Fitting source outer (Import.Faithful source)) :=
  .located fun _ => (fits_leadingName _).bind fun _ => .after (Scanner.advances_exactly '@') fun _ =>
    .after (Scanner.advances_gap _) fun _ => fits_location.bind fun _ =>
      .pure fun stands named => ⟨stands, named⟩

theorem fits_targets :
    targets.Fits source outer fun lefts => ∀ left ∈ lefts, left.Faithful source outer := by
  have target : target.Fits source outer (Target.Faithful source outer) :=
    fits_identifier.bind fun _ => fits_trailingStyle.bind fun _ => .pure fun styled named =>
      ⟨named, styled⟩
  have comma : Scanner.Advances 0 (do inlineGap; Scanner.exactly ','; inlineGap) :=
    (Scanner.advances_gap _).bind fun _ => (Scanner.advances_exactly ',').bind fun _ =>
      Scanner.advances_gap _
  exact target.separated comma

theorem fits_aliasOf (lefts : List Target) :
    (aliasOf lefts).Fits source outer fun statement =>
      (∀ left ∈ lefts, left.Faithful source outer) → statement.Faithful source outer := by
  match lefts with
  | [] => exact ⟨fun _ => trivial, fun _ _ _ _ read => nomatch read⟩
  | [left] => exact fits_qualifiedName.map fun path stands held => ⟨held left (.head _), stands⟩
  | _ :: _ :: _ => exact ⟨fun _ => trivial, fun _ _ _ _ read => nomatch read⟩

theorem fits_namedStyle : namedStyle.Fits source outer (Statement.Faithful source outer) :=
  .after (Scanner.advances_exactly '#') fun _ => fits_identifier.bind fun _ =>
    .after (Scanner.advances_gap _) fun _ => fits_styleBlock.bind fun _ =>
      .pure fun styled named => ⟨named, styled⟩

theorem fits_styleBinding : styleBinding.Fits source outer (Statement.Faithful source outer) :=
  .after (Scanner.advances_exactly '%') fun _ => fits_identifier.bind fun _ =>
    .after (Scanner.advances_gap _) fun _ => .after (Scanner.advances_exactly _) fun _ =>
      fits_tagReference.separatedItems.bind fun _ => .after (Scanner.advances_closing _) fun _ =>
        .pure fun stand named => ⟨named, stand⟩

/-! ### Statements -/

section Statements

variable {statement : Reader Statement}

/-- What may be a statement of a list in a span. -/
abbrev FittingStatement (source : String) (outer : Span) : Spanned Statement → Prop :=
  Fitting source outer fun span statement => statement.Faithful source span

variable (advances : statement.Advances 1)
  (fits : ∀ outer, statement.Fits source outer (Statement.Faithful source outer))

include fits in
theorem fits_wholeStatement :
    (wholeStatement statement).Fits source outer (FittingStatement source outer) :=
  (Reader.Fits.located fits).bind fun _ => .after advances_statementEnd fun _ =>
    .pure fun fitting => fitting

/-- A statement that ends before the others begin, and the others. -/
theorem listFaithful_cons {item : Spanned Statement} {rest : List (Spanned Statement)} {place : Nat}
    (first : FittingStatement source ⟨outer.start, place⟩ item) (high : place ≤ outer.stop)
    (behind : Statement.listFaithful source ⟨place, outer.stop⟩ rest)
    (others : Statement.listFaithful source outer rest) :
    Statement.listFaithful source outer (item :: rest) := by
  refine ⟨⟨⟨first.inside.1, Nat.le_trans first.inside.2 high⟩, first.within, first.own⟩, ?_, others⟩
  intro later held
  exact Nat.le_trans first.inside.2 ((Statement.listFaithful_iff.1 behind).1 later held).1.1

/-- A turn that reads a statement, and the turns behind it. -/
theorem Reply.Fits.more {place middle : Cursor} {least : Nat} {found : List Diagnostic}
    {item : Spanned Statement} {reply : Reply (List (Spanned Statement))}
    (first : ∀ outer, (Reply.mk found (.done item middle)).Fits source outer
      (FittingStatement source outer) place)
    (passed : place.Advances least middle) (ended : reply.outcome.Advances 0 middle)
    (later : ∀ outer, reply.Fits source outer (Statement.listFaithful source outer) middle) :
    ((reply.behind [item]).afterFindings found).Fits source outer
      (Statement.listFaithful source outer) place := by
  refine Reply.Fits.afterFindings (first outer).points ⟨(later outer).points, ?_⟩
  intro items stop read low high
  obtain ⟨rest, outcome, rfl⟩ := Reply.behind_done read
  rw [outcome] at ended
  have before := (first ⟨outer.start, middle.offset⟩).good rfl low (Nat.le_refl _)
  have behind := (later ⟨middle.offset, outer.stop⟩).good outcome (Nat.le_refl _) high
  have others := (later outer).good outcome (Nat.le_trans low passed.offset_le) high
  exact listFaithful_cons before (Nat.le_trans (Cursor.Advances.offset_le ended) high) behind others

include advances fits

/-- The statements of a list keep positions if one statement does. -/
theorem Turns.replyFits {nested : Bool} {bound : Nat} {cursor : Cursor}
    {reply : Reply (List (Spanned Statement))} (turns : Turns statement nested bound cursor reply)
    (outer : Span) (reached : Reached source cursor) :
    reply.Fits source outer (Statement.listFaithful source outer) cursor := by
  have gap : ∀ cursor : Cursor, cursor.Advances 0 (cursor.skipGap isSeparator) :=
    fun cursor => cursor.skipGap_advances isSeparator
  have fitting : ∀ {cursor found scan}, Reached source cursor →
      wholeStatement statement (cursor.skipGap isSeparator) = ⟨found, scan⟩ →
      ∀ outer, (Reply.mk found scan).Fits source outer (FittingStatement source outer)
        (cursor.skipGap isSeparator) := fun {cursor _ _} reached read outer =>
    read ▸ (fits_wholeStatement fits).fits (reached.on (gap cursor))
  induction turns generalizing outer with
  | spent => exact ⟨nofun, fun _ _ read => nomatch read⟩
  | stop =>
      refine ⟨nofun, fun _ _ read _ _ => ?_⟩
      cases read
      trivial
  | @done _ cursor middle _ _ _ _ read later step =>
      have passed := advances.wholeStatement.of_eq read
      have here := reached.on (gap cursor)
      exact (Reply.Fits.more (fitting reached read) passed (later.advances advances) fun outer =>
        step outer (here.on passed)).behind (gap cursor)
  | @halted _ _ cursor stop _ _ _ read _ step =>
      have passed := advances.wholeStatement.of_eq read
      have here := reached.on (gap cursor)
      rw [skipRemainder_of_halted passed] at step
      obtain ⟨_, before, behind, _⟩ := id passed
      have on := (gap cursor).trans (before.trans behind)
      refine ((step outer (reached.on on)).behind on).afterFindings ?_
      exact List.forall_mem_append.2 ⟨(fitting reached read outer).points,
        List.forall_mem_singleton.2 (within_unterminatedString here passed)⟩
  | @refused _ cursor stop _ _ more read skipped _ step =>
      have here := reached.on (gap cursor)
      have beyond := skipped ▸ skipStatement_advances nested (atEnd_of_more more)
      refine ((step outer (here.on beyond)).behind ((gap cursor).trans beyond)).afterFindings ?_
      exact List.forall_mem_append.2 ⟨(fitting reached read outer).points,
        List.forall_mem_singleton.2 (within_unexpectedToken here beyond)⟩

theorem fits_statementList (nested : Bool) (outer : Span) :
    (statementList statement nested).Fits source outer (Statement.listFaithful source outer) :=
  ⟨advances_statementList advances nested, fun _ reached =>
    (turns_statementTurns statement nested _ _).replyFits advances fits outer reached⟩

theorem fits_namespaceWith :
    (namespaceWith statement).Fits source outer (Fitting source outer (Namespace.Faithful source)) :=
  .located fun span => (fits_leadingName _).lift.bind fun _ =>
    .after (Scanner.advances_exactly '[') fun _ =>
    Reader.Fits.bind (fits_statementList advances fits true span) fun _ =>
    .after (Scanner.advances_closing ']') fun _ => fits_trailingArguments.lift.bind fun _ =>
    fits_trailingStyle.lift.bind fun _ =>
      .pure fun styled passed stated named => ⟨named, stated, passed, styled⟩

theorem fits_producerWith :
    (producerWith statement).Fits source outer (Producer.Faithful source outer) := by
  have fetched : Scanner.Fits source outer (Producer.Faithful source outer)
      (ProducerOf.fetched <$> importClause) :=
    fits_importClause.map fun _ fitting => ⟨fitting.inside, fitting.within, fitting.own⟩
  have level : Reader.Fits source outer (Producer.Faithful source outer)
      (ProducerOf.level <$> namespaceWith statement) :=
    (fits_namespaceWith advances fits).map fun _ fitting =>
      ⟨fitting.inside, fitting.within, fitting.own⟩
  have made : Scanner.Fits source outer (Producer.Faithful source outer)
      (ProducerOf.call <$> call) :=
    fits_call.map fun _ fitting => ⟨fitting.inside, fitting.within, fitting.own⟩
  exact fetched.lift.orTry (level.orTry made.lift)

theorem fits_assignmentWith :
    (assignmentWith statement).Fits source outer (Statement.Faithful source outer) := by
  refine fits_targets.lift.bind fun left => .after Scanner.advances_equals fun _ =>
    (fits_producerWith advances fits).optional.bind fun found => ?_
  cases found with
  | some producer => exact .pure fun produced targeted => ⟨targeted, produced producer rfl⟩
  | none => exact (fits_aliasOf left).lift.mono fun _ held _ => held

theorem fits_statementWith :
    (statementWith statement).Fits source outer (Statement.Faithful source outer) := by
  -- A namespace, an import or a call that is a statement keeps no span but that of the statement.
  have fetched : Scanner.Fits source outer (Statement.Faithful source outer)
      ((fun fetched => .fetched fetched.value) <$> importClause) :=
    fits_importClause.map fun _ fitting => fitting.wider
  have level : Reader.Fits source outer (Statement.Faithful source outer)
      ((fun level => .level level.value) <$> namespaceWith statement) :=
    (fits_namespaceWith advances fits).map fun _ fitting => fitting.wider
  have made : Scanner.Fits source outer (Statement.Faithful source outer)
      ((fun made => .call made.value) <$> call) := fits_call.map fun _ fitting => fitting.wider
  have mentioned : Scanner.Fits source outer (Statement.Faithful source outer)
      (Statement.reference <$> qualifiedName) := fits_qualifiedName.map fun _ stands => stands
  exact fits_namedStyle.lift.orTry <| fits_styleBinding.lift.orTry <| fetched.lift.orTry <|
    (fits_assignmentWith advances fits).orTry <| level.orTry <| made.lift.orTry mentioned.lift

end Statements

theorem fits_statementWithin (depth : Nat) (outer : Span) :
    Reader.Fits source outer (Statement.Faithful source outer) fun cursor =>
      statementWithin depth cursor := by
  induction depth generalizing outer with
  | zero => exact ⟨fun _ => trivial, fun _ _ => ⟨nofun, fun _ _ read => nomatch read⟩⟩
  | succ depth step => exact fits_statementWith (advances_statementWithin depth) step

end Parser

namespace Recipe

open RecipeGraph.Parser

/-- What is read of a text stands in it where its spans say, and every report points into it. -/
theorem parseLenient_faithful (source : String) :
    Statement.listFaithful source ⟨0, source.utf8ByteSize⟩ (parseLenient source).1.statements ∧
      ∀ diagnostic ∈ (parseLenient source).2, diagnostic.Within source := by
  obtain ⟨items, stop, outcome, ends⟩ := recipeStatements_finishes (.ofText source)
  have lenient : parseLenient source =
      (⟨items⟩, (recipeStatements (.ofText source)).findings) := by
    rw [parseLenient, outcome]
  have statement := advances_statementWithin (Cursor.ofText source).rest.length
  have passed := advances_statementList statement false (.ofText source)
  rw [show (statementList _ false _).outcome = _ from outcome] at passed
  have whole := (fits_statementList statement (fits_statementWithin _) false
    ⟨0, source.utf8ByteSize⟩).fits (Cursor.reached_ofText source)
  rw [lenient]
  exact ⟨whole.good outcome (Nat.le_refl _) (Cursor.Reached.offset_le passed), whole.points⟩

end Recipe

end RecipeGraph
