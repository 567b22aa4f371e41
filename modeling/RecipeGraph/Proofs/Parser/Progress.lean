/-
# Reading moves on

Whatever is read is a stretch of the text that begins where reading began. How long it is at least
says whether reading makes progress: every name, call or statement has a character or more, and so
a repetition of them comes to an end. A string that is not closed is found behind the place where
reading began, and reading has passed its first quote.
-/

import RecipeGraph.Proofs.Parser.Reads
import RecipeGraph.Proofs.Parser.Spacing
import RecipeGraph.Proofs.Parser.Turns

namespace RecipeGraph.Parser

variable {α β : Type} {least : Nat}

namespace Cursor

/-- The second place lies behind the first by a stretch of at least so many characters. -/
def Advances (least : Nat) (start stop : Cursor) : Prop :=
  ∃ taken : List Char, least ≤ taken.length ∧ start.Reaches taken stop

namespace Advances

variable {start middle stop : Cursor} {more : Nat}

theorem refl (cursor : Cursor) : cursor.Advances 0 cursor :=
  ⟨[], Nat.zero_le _, .refl cursor⟩

theorem trans (one : start.Advances least middle) (two : middle.Advances more stop) :
    start.Advances (least + more) stop := by
  obtain ⟨first, long, reached⟩ := one
  obtain ⟨second, long', reached'⟩ := two
  refine ⟨first ++ second, ?_, reached.trans reached'⟩
  rw [List.length_append]
  exact Nat.add_le_add long long'

theorem mono (advances : start.Advances least stop) (fewer : more ≤ least) :
    start.Advances more stop := by
  obtain ⟨taken, long, reached⟩ := advances
  exact ⟨taken, Nat.le_trans fewer long, reached⟩

theorem cons {c : Char} {rest : List Char} {offset : Nat}
    (advances : Cursor.Advances least ⟨rest, offset + c.utf8Size⟩ stop) :
    Cursor.Advances (least + 1) ⟨c :: rest, offset⟩ stop := by
  obtain ⟨taken, long, reached⟩ := advances
  exact ⟨c :: taken, Nat.succ_le_succ long, reached.cons⟩

/-- What is left gets shorter by as much. -/
theorem length_le (advances : start.Advances least stop) :
    stop.rest.length + least ≤ start.rest.length := by
  obtain ⟨taken, long, same, _⟩ := advances
  rw [same, List.length_append]
  omega

end Advances

/-- Skipping a gap passes over a stretch of the text. -/
theorem skipGap_advances (blank : Char → Bool) (cursor : Cursor) :
    cursor.Advances 0 (cursor.skipGap blank) := by
  obtain ⟨text, reached, _⟩ := cursor.skipGap_spacing blank
  exact ⟨text, Nat.zero_le _, reached⟩

theorem takeWhile_advances (keep : Char → Bool) (cursor : Cursor) :
    cursor.Advances 0 (cursor.takeWhile keep).2 :=
  ⟨_, Nat.zero_le _, cursor.takeWhile_reaches keep⟩

/-- Taking characters stops at the first one that is not kept. -/
theorem takeWhile_stops (keep : Char → Bool) (cursor : Cursor) :
    Ahead (keep · = false) (cursor.takeWhile keep).2.rest := by
  intro c first
  have held := List.head?_dropWhile_not keep cursor.rest
  rw [show (cursor.rest.dropWhile keep).head? = some c from first] at held
  exact held

end Cursor

/-- An outcome of reading from a place. A string that is not closed was opened behind that place,
and reading has gone on behind its first quote, to the end of the line. -/
def Scan.Advances (least : Nat) (start : Cursor) : Scan α → Prop
  | .done _ stop => start.Advances least stop
  | .refused => True
  | .halted opened stop => ∃ place : Cursor, start.Advances 0 place ∧ place.Advances 1 stop ∧
      opened = place.offset ∧ Ahead (· = '\n') stop.rest

theorem Scan.Advances.mono {start : Cursor} {scan : Scan α} {fewer : Nat}
    (advances : scan.Advances least start) (less : fewer ≤ least) : scan.Advances fewer start := by
  cases scan with
  | done value stop => exact Cursor.Advances.mono advances less
  | refused => trivial
  | halted opened stop => exact advances

/-- An outcome of going on behind a stretch of text. -/
theorem Scan.Advances.behind {start middle : Cursor} {scan : Scan α} {first : Nat}
    (passed : start.Advances first middle) (advances : scan.Advances least middle) :
    scan.Advances (first + least) start := by
  cases scan with
  | done value stop => exact passed.trans advances
  | refused => trivial
  | halted opened stop =>
      obtain ⟨place, before, behind, same⟩ := advances
      exact ⟨place, (passed.trans before).mono (Nat.zero_le _), behind, same⟩

/-- The scanner passes over a stretch of at least so many characters. -/
def Scanner.Advances (least : Nat) (item : Scanner α) : Prop :=
  ∀ cursor, (item cursor).Advances least cursor

namespace Scanner

section Advances

variable {first second item : Scanner α} {next : α → Scanner β}

theorem Advances.mono {fewer : Nat} (advances : Advances least item) (less : fewer ≤ least) :
    Advances fewer item :=
  fun cursor => (advances cursor).mono less

theorem advances_pure (value : α) : Advances 0 (pure value : Scanner α) :=
  fun cursor => .refl cursor

theorem Advances.bind_add {more : Nat} (one : Advances least first)
    (two : ∀ value, Advances more (next value)) : Advances (least + more) (first >>= next) := by
  intro cursor
  have before := one cursor
  rw [bind_apply]
  cases read : first cursor with
  | done value stop =>
      rw [read] at before
      exact (two value stop).behind before
  | refused => trivial
  | halted opened stop =>
      rw [read] at before
      exact before

/-- A sequence passes over as much as its first part. -/
theorem Advances.bind {more : Nat} (one : Advances least first)
    (two : ∀ value, Advances more (next value)) : Advances least (first >>= next) :=
  (one.bind_add two).mono (Nat.le_add_right _ _)

/-- A sequence passes over as much as its later parts. -/
theorem Advances.bind_later {more : Nat} (one : Advances more first)
    (two : ∀ value, Advances least (next value)) : Advances least (first >>= next) :=
  (one.bind_add two).mono (Nat.le_add_left _ _)

theorem Advances.map (advances : Advances least item) (f : α → β) : Advances least (f <$> item) :=
  advances.bind fun value => advances_pure (f value)

theorem Advances.orTry (one : Advances least first) (two : Advances least second) :
    Advances least (orTry first second) := by
  intro cursor
  have before := one cursor
  rw [Scanner.orTry]
  cases read : first cursor with
  | done value stop =>
      rw [read] at before
      exact before
  | refused => exact two cursor
  | halted opened stop =>
      rw [read] at before
      exact before

theorem Advances.optional (advances : Advances least item) : Advances 0 (optional item) := by
  intro cursor
  have before := advances cursor
  rw [Scanner.optional]
  cases read : item cursor with
  | done value stop =>
      rw [read] at before
      exact Cursor.Advances.mono before (Nat.zero_le _)
  | refused => exact .refl cursor
  | halted opened stop =>
      rw [read] at before
      exact before

theorem Advances.located (advances : Advances least item) : Advances least (located item) := by
  intro cursor
  have before := advances cursor
  rw [Scanner.located]
  cases read : item cursor with
  | done value stop =>
      rw [read] at before
      exact before
  | refused => trivial
  | halted opened stop =>
      rw [read] at before
      exact before

theorem advances_gap (blank : Char → Bool) : Advances 0 (moveBy (Cursor.skipGap blank)) :=
  fun cursor => cursor.skipGap_advances blank

theorem advances_one (accept : Char → Bool) : Advances 1 (one accept) := by
  rintro ⟨rest, offset⟩
  cases rest with
  | nil => trivial
  | cons c rest =>
      by_cases held : accept c = true
      · rw [one, if_pos held]
        exact Cursor.Advances.cons (.refl _)
      · rw [one, if_neg held]
        trivial

theorem advances_exactly (c : Char) : Advances 1 (exactly c) :=
  (advances_one (· == c)).map fun _ => ()

theorem advances_run (keep : Char → Bool) : Advances 0 (run keep) :=
  fun cursor => cursor.takeWhile_advances keep

theorem advances_closing (c : Char) : Advances 0 (closing c) := by
  intro cursor
  rw [closing]
  split
  · exact .refl cursor
  · exact (advances_exactly c cursor).mono (Nat.zero_le _)

theorem advances_turns {turn : Scanner (Turn α)} (advances : Advances least turn) (bound : Nat) :
    Advances 0 (turns turn bound) := by
  induction bound with
  | zero => exact fun _ => trivial
  | succ bound step =>
      intro cursor
      have before := advances cursor
      rw [turns_succ_apply]
      cases read : turn cursor with
      | refused => trivial
      | halted opened stop =>
          rw [read] at before
          exact before
      | done value stop =>
          rw [read] at before
          have here : cursor.Advances 0 stop := Cursor.Advances.mono before (Nat.zero_le _)
          cases value with
          | stop => exact here
          | last item => exact here
          | more item =>
              have later := step stop
              dsimp only
              cases read' : turns turn bound stop with
              | done items stop' =>
                  rw [read'] at later
                  exact here.trans later
              | refused => trivial
              | halted opened stop' =>
                  rw [read'] at later
                  have halted : (Scan.halted opened stop' : Scan (List α)).Advances 0 stop := later
                  exact halted.behind here

theorem Advances.repeated {turn : Scanner (Turn α)} (advances : Advances least turn) :
    Advances 0 (repeated turn) :=
  fun cursor => advances_turns advances _ cursor

/-- A turn that reads an item if there is one. -/
theorem Advances.itemTurn (advances : Advances least item) : Advances 0 (do
    match ← Scanner.optional item with
    | some value => return Turn.more value
    | none => return .stop) := by
  refine advances.optional.bind_later fun found => ?_
  cases found with
  | some value => exact advances_pure _
  | none => exact advances_pure _

theorem Advances.separated {between : Scanner Unit} (advances : Advances least item)
    (parted : Advances 0 between) : Advances least (separated item between) := by
  have others : Advances 0 (many do between; item) :=
    (parted.bind fun _ => advances).itemTurn.repeated
  exact advances.bind fun _ => others.bind fun _ => advances_pure _

/-! ### Words and styles -/

theorem advances_identifier : Advances 1 identifier :=
  ((advances_one _).bind fun _ => (advances_run _).bind fun _ => advances_pure _).located

theorem advances_qualifiedName : Advances 1 qualifiedName :=
  (advances_identifier.separated ((advances_exactly '.').mono (Nat.zero_le _))).map _ |>.located

/-- A quoted text has two quotes, and one that is not closed has the first of them. -/
theorem advances_quoted : Advances 1 quoted := by
  refine Advances.located fun cursor => ?_
  rw [bind_apply]
  have before := advances_one (fun c => c == '"' || c == '\'') cursor
  cases read : one (fun c => c == '"' || c == '\'') cursor with
  | refused => trivial
  | halted opened stop =>
      rw [read] at before
      exact before
  | done mark stop =>
      rw [read] at before
      have content := stop.takeWhile_advances fun c => c != mark && c != '\n'
      have stops := stop.takeWhile_stops fun c => c != mark && c != '\n'
      dsimp only [quotedRest]
      generalize (stop.takeWhile fun c => c != mark && c != '\n').2 = behind at content stops ⊢
      by_cases closed : behind.rest.head? = some mark
      · have close := advances_exactly mark behind
        obtain ⟨rest, offset⟩ := behind
        obtain ⟨rest, rfl⟩ := List.head?_eq_some_iff.1 closed
        obtain ⟨_, _, same⟩ := reads_exactly mark rest offset
        rw [List.singleton_append] at same
        rw [same] at close ⊢
        exact (Cursor.Advances.trans before (content.trans close)).mono (Nat.le_add_right _ _)
      · have open' : Ahead (· ≠ mark) behind.rest := fun c first same => closed (same ▸ first)
        have ends : Ahead (· = '\n') behind.rest := fun c first => by
          simpa [open' c first] using stops c first
        rw [refuses_exactly open' behind.offset]
        exact ⟨cursor, .refl cursor, Cursor.Advances.trans before content, rfl, ends⟩

theorem advances_leadingName (blank : Char → Bool) :
    Advances 0 (leadingName (Cursor.skipGap blank)) :=
  (advances_identifier.bind fun _ => (advances_gap blank).bind fun _ => advances_pure _).optional

theorem advances_tagReference : Advances 1 tagReference :=
  (advances_exactly '#').bind fun _ => advances_qualifiedName

theorem advances_property : Advances 1 property := by
  have value : Advances 0 propertyValue :=
    ((advances_quoted.map _).mono (Nat.zero_le _)).orTry
      ((advances_run isValuePart).bind fun _ => advances_pure _)
  exact (advances_one isKeyPart).bind fun _ => (advances_run isKeyPart).bind fun _ =>
    (advances_gap _).bind fun _ => (advances_exactly ':').bind fun _ =>
      (advances_gap _).bind fun _ => value.bind fun _ => advances_pure _

theorem advances_styleItem : Advances 1 styleItem :=
  (advances_tagReference.map _).orTry ((advances_quoted.map _).orTry (advances_property.map _))

theorem Advances.separatedItems (advances : Advances least item) :
    Advances 0 (separatedItems item) :=
  Advances.repeated ((advances_gap isSeparator).bind fun _ => advances.itemTurn)

theorem advances_styleBlock : Advances 1 styleBlock :=
  (advances_exactly _).bind fun _ => advances_styleItem.separatedItems.bind fun _ =>
    (advances_closing _).bind fun _ => advances_pure _

theorem advances_trailingStyle : Advances 0 trailingStyle :=
  ((advances_gap _).bind_later fun _ => advances_styleBlock).optional

/-! ### Calls -/

theorem Advances.argumentList {argument : Scanner Argument} (advances : Advances least argument) :
    Advances 1 (argumentList argument) := by
  have turn : Advances 0 (argumentTurn argument) := by
    refine (advances_gap _).bind_later fun _ => advances.optional.bind_later fun found => ?_
    cases found with
    | none => exact advances_pure _
    | some value =>
        refine (advances_gap _).bind_later fun _ => (advances_exactly ',').optional.bind_later ?_
        intro found
        cases found with
        | none => exact advances_pure _
        | some _ => exact advances_pure _
  exact (advances_exactly '(').bind fun _ => turn.repeated.bind fun _ =>
    (advances_gap _).bind fun _ => (advances_closing ')').bind fun _ => advances_pure _

theorem Advances.callWith {argument : Scanner Argument} (advances : Advances least argument) :
    Advances 1 (callWith argument) :=
  (advances_identifier.bind fun _ => (advances_gap _).bind fun _ =>
    advances.argumentList.bind fun _ => advances_trailingStyle.bind fun _ => advances_pure _).located

theorem advances_argumentWithin (depth : Nat) :
    Advances 1 fun cursor => argumentWithin depth cursor := by
  induction depth with
  | zero => exact fun _ => trivial
  | succ depth step => exact (step.callWith.map _).orTry (advances_qualifiedName.map _)

theorem advances_argument : Advances 1 argument :=
  fun cursor => advances_argumentWithin cursor.rest.length cursor

theorem advances_call : Advances 1 call :=
  advances_argument.callWith

/-! ### Parts of statements -/

theorem advances_trailingArguments : Advances 0 trailingArguments :=
  ((advances_gap _).bind_later fun _ => advances_argument.argumentList).optional.bind fun _ =>
    advances_pure _

theorem advances_importClause : Advances 1 importClause :=
  ((advances_leadingName _).bind_later fun _ => (advances_exactly '@').bind fun _ =>
    (advances_gap _).bind fun _ => advances_quoted.optional.located.bind fun _ =>
      advances_pure _).located

theorem advances_targets : Advances 1 targets := by
  have target : Advances 1 target :=
    advances_identifier.bind fun _ => advances_trailingStyle.bind fun _ => advances_pure _
  have comma : Advances 0 (do inlineGap; Scanner.exactly ','; inlineGap) :=
    (advances_gap _).bind fun _ => (advances_exactly ',').bind fun _ => advances_gap _
  exact target.separated comma

theorem advances_equals : Advances 0 (do inlineGap; Scanner.exactly '='; inlineGap) :=
  (advances_gap _).bind fun _ => (advances_exactly '=').bind fun _ => advances_gap _

theorem advances_aliasOf (lefts : List Target) : Advances 1 (aliasOf lefts) := by
  match lefts with
  | [] => exact fun _ => trivial
  | [left] => exact advances_qualifiedName.map _
  | _ :: _ :: _ => exact fun _ => trivial

theorem advances_namedStyle : Advances 1 namedStyle :=
  (advances_exactly '#').bind fun _ => advances_identifier.bind fun _ =>
    (advances_gap _).bind fun _ => advances_styleBlock.bind fun _ => advances_pure _

theorem advances_styleBinding : Advances 1 styleBinding :=
  (advances_exactly '%').bind fun _ => advances_identifier.bind fun _ =>
    (advances_gap _).bind fun _ => (advances_exactly _).bind fun _ =>
      advances_tagReference.separatedItems.bind fun _ => (advances_closing _).bind fun _ =>
        advances_pure _

end Advances

end Scanner

/-! ### Statements -/

/-- The reader passes over a stretch of at least so many characters. -/
def Reader.Advances (least : Nat) (item : Reader α) : Prop :=
  ∀ cursor, (item cursor).outcome.Advances least cursor

theorem Reader.Advances.of_eq {item : Reader α} {cursor : Cursor} {found : List Diagnostic}
    {scan : Scan α} (advances : item.Advances least) (read : item cursor = ⟨found, scan⟩) :
    scan.Advances least cursor := by
  have passed := advances cursor
  rwa [read] at passed

theorem Scanner.Advances.lift {item : Scanner α} (advances : item.Advances least) :
    (Reader.ofScanner item).Advances least :=
  advances

namespace Reader

section Advances

variable {first second item : Reader α} {next : α → Reader β}

theorem Advances.mono {fewer : Nat} (advances : Advances least item) (less : fewer ≤ least) :
    Advances fewer item :=
  fun cursor => (advances cursor).mono less

theorem advances_pure (value : α) : Advances 0 (pure value : Reader α) :=
  fun cursor => .refl cursor

theorem Advances.bind_add {more : Nat} (one : Advances least first)
    (two : ∀ value, Advances more (next value)) : Advances (least + more) (first >>= next) := by
  intro cursor
  have before := one cursor
  rw [bind_apply]
  generalize first cursor = reply at before ⊢
  obtain ⟨found, scan⟩ := reply
  cases scan with
  | done value stop => exact (two value stop).behind before
  | refused => trivial
  | halted opened stop => exact before

theorem Advances.bind {more : Nat} (one : Advances least first)
    (two : ∀ value, Advances more (next value)) : Advances least (first >>= next) :=
  (one.bind_add two).mono (Nat.le_add_right _ _)

theorem Advances.bind_later {more : Nat} (one : Advances more first)
    (two : ∀ value, Advances least (next value)) : Advances least (first >>= next) :=
  (one.bind_add two).mono (Nat.le_add_left _ _)

theorem Advances.map (advances : Advances least item) (f : α → β) : Advances least (f <$> item) :=
  advances.bind fun value => advances_pure (f value)

theorem Advances.orTry (one : Advances least first) (two : Advances least second) :
    Advances least (orTry first second) := by
  intro cursor
  have before := one cursor
  rw [Reader.orTry]
  generalize first cursor = reply at before ⊢
  obtain ⟨found, scan⟩ := reply
  cases scan with
  | done value stop => exact before
  | refused => exact two cursor
  | halted opened stop => exact before

theorem Advances.optional (advances : Advances least item) : Advances 0 (optional item) := by
  intro cursor
  have before := advances cursor
  rw [Reader.optional]
  generalize item cursor = reply at before ⊢
  obtain ⟨found, scan⟩ := reply
  cases scan with
  | done value stop => exact Cursor.Advances.mono before (Nat.zero_le _)
  | refused => exact .refl cursor
  | halted opened stop => exact before

theorem Advances.located (advances : Advances least item) : Advances least (located item) := by
  intro cursor
  have before := advances cursor
  rw [Reader.located]
  generalize item cursor = reply at before ⊢
  obtain ⟨found, scan⟩ := reply
  cases scan with
  | done value stop => exact before
  | refused => trivial
  | halted opened stop => exact before

end Advances

end Reader

theorem skipRemainder_advances (nested : Bool) (cursor : Cursor) :
    cursor.Advances 0 (skipRemainder nested cursor) :=
  cursor.takeWhile_advances _

/-- Where something is left, a character at least is skipped. -/
theorem skipStatement_advances (nested : Bool) {cursor : Cursor} (inside : cursor.atEnd = false) :
    cursor.Advances 1 (skipStatement nested cursor) := by
  obtain ⟨rest, offset⟩ := cursor
  cases rest with
  | nil => cases inside
  | cons c rest =>
      dsimp only [skipStatement]
      split
      · exact Cursor.Advances.cons (.refl _)
      · next moved =>
          obtain ⟨taken, _, reached⟩ := skipRemainder_advances nested ⟨c :: rest, offset⟩
          refine ⟨taken, ?_, reached⟩
          cases taken with
          | nil => exact absurd reached.2 moved
          | cons first taken => exact Nat.succ_le_succ (Nat.zero_le _)

section Statements

variable {statement : Reader Statement}

/-- Items that have been read already do not change how far reading has got. -/
theorem Reply.behind_advances {items : List α} {reply : Reply (List α)} {start : Cursor}
    (advances : reply.outcome.Advances least start) :
    (reply.behind items).outcome.Advances least start := by
  obtain ⟨found, scan⟩ := reply
  cases scan with
  | done more stop => exact advances
  | refused => trivial
  | halted opened stop => exact advances

theorem advances_statementEnd : statementEnd.Advances 0 := by
  intro cursor
  rw [statementEnd]
  split
  · exact cursor.skipGap_advances _
  · trivial

theorem Reader.Advances.wholeStatement (advances : statement.Advances least) :
    (wholeStatement statement).Advances least :=
  advances.located.bind fun _ => advances_statementEnd.lift.bind fun _ => advances_pure _

section Turns

variable {nested : Bool} {bound : Nat} {cursor : Cursor} {reply : Reply (List (Spanned Statement))}

/-- No turn goes back. -/
theorem Turns.advances (turns : Turns statement nested bound cursor reply)
    (advances : statement.Advances least) : reply.outcome.Advances 0 cursor := by
  induction turns with
  | spent => trivial
  | @stop _ cursor => exact cursor.skipGap_advances isSeparator
  | @done _ cursor stop _ _ _ _ read _ step =>
      have gap := cursor.skipGap_advances isSeparator
      have here : cursor.Advances 0 stop :=
        gap.trans (Cursor.Advances.mono (advances.wholeStatement.of_eq read) (Nat.zero_le _))
      exact Reply.behind_advances (step.behind here)
  | @halted _ _ cursor stop _ _ _ read _ step =>
      have gap := cursor.skipGap_advances isSeparator
      obtain ⟨place, before, behind, _⟩ := advances.wholeStatement.of_eq read
      have here : cursor.Advances 0 stop :=
        (gap.trans (before.trans behind)).mono (Nat.zero_le _)
      exact step.behind (here.trans (skipRemainder_advances nested stop))
  | @refused _ cursor _ _ _ more _ skipped _ step =>
      have gap := cursor.skipGap_advances isSeparator
      have passed := skipped ▸ skipStatement_advances nested (atEnd_of_more more)
      exact step.behind (gap.trans (passed.mono (Nat.zero_le 1)))

/-- With turns to spare, a list of statements is read to its end, whatever is found on the way. -/
theorem Turns.finishes (turns : Turns statement nested bound cursor reply)
    (advances : statement.Advances 1) (enough : cursor.rest.length < bound) :
    ∃ items stop, reply.outcome = .done items stop ∧ noMoreStatements nested stop = true := by
  induction turns with
  | spent => exact absurd enough (Nat.not_lt_zero _)
  | stop ends => exact ⟨[], _, rfl, ends⟩
  | @done _ cursor stop _ item _ _ read _ step =>
      have gap := (cursor.skipGap_advances isSeparator).length_le
      have left := Cursor.Advances.length_le (advances.wholeStatement.of_eq read)
      obtain ⟨items, last, same, ends⟩ := step (by omega)
      refine ⟨item :: items, last, ?_, ends⟩
      rw [Reply.afterFindings, Reply.behind, same]
      rfl
  | @halted _ _ cursor stop _ _ _ read _ step =>
      have gap := (cursor.skipGap_advances isSeparator).length_le
      obtain ⟨place, before, behind, _⟩ := advances.wholeStatement.of_eq read
      have left := (before.trans behind).length_le
      have skipped := (skipRemainder_advances nested stop).length_le
      exact step (by omega)
  | @refused _ cursor _ _ _ more _ skipped _ step =>
      have gap := (cursor.skipGap_advances isSeparator).length_le
      have left := (skipStatement_advances nested (atEnd_of_more more)).length_le
      rw [skipped] at left
      exact step (by omega)

end Turns

theorem advances_statementTurns (advances : statement.Advances least) (nested : Bool)
    (bound : Nat) : (statementTurns statement nested bound).Advances 0 :=
  fun cursor => (turns_statementTurns statement nested bound cursor).advances advances

theorem advances_statementList (advances : statement.Advances least) (nested : Bool) :
    (statementList statement nested).Advances 0 :=
  fun cursor => advances_statementTurns advances nested _ cursor

open Scanner in
theorem advances_namespaceWith (advances : statement.Advances least) :
    (namespaceWith statement).Advances 1 :=
  ((advances_leadingName _).lift.bind_later fun _ => (advances_exactly '[').lift.bind fun _ =>
    (advances_statementList advances true).bind fun _ => (advances_closing ']').lift.bind fun _ =>
      advances_trailingArguments.lift.bind fun _ => advances_trailingStyle.lift.bind fun _ =>
        Reader.advances_pure _).located

theorem advances_producerWith (advances : statement.Advances least) :
    (producerWith statement).Advances 1 :=
  (Scanner.advances_importClause.map _).lift.orTry
    (((advances_namespaceWith advances).map _).orTry (Scanner.advances_call.map _).lift)

theorem advances_assignmentWith (advances : statement.Advances least) :
    (assignmentWith statement).Advances 1 := by
  refine Scanner.advances_targets.lift.bind fun left => Scanner.advances_equals.lift.bind fun _ =>
    show Reader.Advances 0 _ from (advances_producerWith advances).optional.bind_later fun found => ?_
  cases found with
  | some producer => exact Reader.advances_pure _
  | none => exact (Scanner.advances_aliasOf left).lift.mono (Nat.zero_le _)

theorem advances_statementWith (advances : statement.Advances least) :
    (statementWith statement).Advances 1 :=
  Scanner.advances_namedStyle.lift.orTry <| Scanner.advances_styleBinding.lift.orTry <|
    (Scanner.advances_importClause.map _).lift.orTry <|
    (advances_assignmentWith advances).orTry <|
    ((advances_namespaceWith advances).map _).orTry <|
    (Scanner.advances_call.map _).lift.orTry (Scanner.advances_qualifiedName.map _).lift

/-- Every statement has a character or more. -/
theorem advances_statementWithin (depth : Nat) :
    Reader.Advances 1 fun cursor => statementWithin depth cursor := by
  induction depth with
  | zero => exact fun _ => trivial
  | succ depth step => exact advances_statementWith step

end Statements

end RecipeGraph.Parser
