/-
# The order of what reading finds

What is found in a text is found in the order of the text, with one exception. A namespace reports
what it finds inside while the statement around it is still an attempt. If something else follows on
its line, the statement is taken back, but what was reported inside is not. The report on the
statement then begins before the others, and whatever lies behind the end of that report is read,
and reported, once more.

So only behind the report on a statement that was taken back can a stretch of text be reported
again, and as long as there is no such report, there are no more reports than bytes.
-/

import RecipeGraph.Proofs.Parser.Accounted
import RecipeGraph.Proofs.Parser.Placement

namespace RecipeGraph

namespace Diagnostic

/-- The stretch of text that the first primary label shows. -/
def primary? (diagnostic : Diagnostic) : Option Span :=
  (diagnostic.labels.find? fun label => label.primary).map Label.span

/-- Where a finding begins. -/
def begins (diagnostic : Diagnostic) : Nat :=
  (diagnostic.primary?.map Span.start).getD 0

theorem Within.begins_le {source : String} {diagnostic : Diagnostic}
    (within : diagnostic.Within source) : diagnostic.begins ≤ source.utf8ByteSize := by
  unfold begins primary?
  cases shown : diagnostic.labels.find? fun label => label.primary with
  | none => exact Nat.zero_le _
  | some label =>
      have held := within label (List.mem_of_find?_eq_some shown)
      exact Nat.le_trans held.ordered held.inside

/-- A report on a statement that begins before another finding does: if it comes later, the other
one was made in a statement that has been taken back. -/
def TakesBack (back one : Diagnostic) : Prop :=
  back.code = some .unexpectedToken ∧ back.begins < one.begins

instance (back one : Diagnostic) : Decidable (back.TakesBack one) :=
  inferInstanceAs (Decidable (_ ∧ _))

end Diagnostic

namespace Parser

open Cursor

variable {α β : Type} {least : Nat}

/-! ### Findings in order -/

/-- One of the later findings takes the finding back. -/
def TakenBack (one : Diagnostic) (later : List Diagnostic) : Prop :=
  ∃ back ∈ later, back.TakesBack one

/-- What comes later begins behind a finding, up to a report that takes it back. -/
def Follows (one : Diagnostic) : (later : List Diagnostic) → Prop
  | [] => True
  | next :: later => next.TakesBack one ∨ one.begins < next.begins ∧ Follows one later

/-- Every finding is followed by those that begin behind it, as long as it is not taken back. -/
def InOrder : (found : List Diagnostic) → Prop
  | [] => True
  | one :: later => Follows one later ∧ InOrder later

/-- What was found and is not taken back begins before a place. -/
def ClearOf (place : Nat) : (found : List Diagnostic) → Prop
  | [] => True
  | one :: later => (TakenBack one later ∨ one.begins < place) ∧ ClearOf place later

section Findings

variable {one other : Diagnostic} {first second found between behind : List Diagnostic}
  {place next : Nat}

theorem TakenBack.append_left (taken : TakenBack one first) : TakenBack one (first ++ second) := by
  obtain ⟨back, held, takes⟩ := taken
  exact ⟨back, List.mem_append_left _ held, takes⟩

theorem follows_of_begins (later : ∀ next ∈ found, one.begins < next.begins) :
    Follows one found := by
  induction found with
  | nil => trivial
  | cons next found step =>
      have here := List.forall_mem_cons.1 later
      exact .inr ⟨here.1, step here.2⟩

/-- Nothing is asked of what comes behind a report that takes a finding back. -/
theorem Follows.append (follows : Follows one first)
    (more : TakenBack one first ∨ Follows one second) : Follows one (first ++ second) := by
  induction first with
  | nil =>
      rcases more with ⟨back, held, _⟩ | more
      · nomatch held
      · exact more
  | cons next first step =>
      rcases follows with takes | ⟨begins, follows⟩
      · exact .inl takes
      · rcases more with ⟨back, held, takes⟩ | more
        · rcases List.mem_cons.1 held with rfl | held
          · exact .inl takes
          · exact .inr ⟨begins, step follows (.inl ⟨back, held, takes⟩)⟩
        · exact .inr ⟨begins, step follows (.inr more)⟩

theorem InOrder.append (ordered : InOrder first) (clear : ClearOf place first)
    (more : InOrder second) (behind : ∀ next ∈ second, place ≤ next.begins) :
    InOrder (first ++ second) := by
  induction first with
  | nil => exact more
  | cons one first step =>
      obtain ⟨follows, ordered⟩ := ordered
      obtain ⟨here, clear⟩ := clear
      refine ⟨follows.append ?_, step ordered clear⟩
      rcases here with taken | before
      · exact .inl taken
      · exact .inr (follows_of_begins fun next held => Nat.lt_of_lt_of_le before (behind next held))

theorem ClearOf.append (clear : ClearOf place first) (more : ClearOf next second)
    (less : place ≤ next) : ClearOf next (first ++ second) := by
  induction first with
  | nil => exact more
  | cons one first step =>
      obtain ⟨here, clear⟩ := clear
      refine ⟨?_, step clear⟩
      rcases here with taken | before
      · exact .inl taken.append_left
      · exact .inr (Nat.lt_of_lt_of_le before less)

theorem ClearOf.mono (clear : ClearOf place found) (less : place ≤ next) : ClearOf next found := by
  induction found with
  | nil => trivial
  | cons one found step =>
      exact ⟨clear.1.imp_right fun before => Nat.lt_of_lt_of_le before less, step clear.2⟩

/-- A report that begins before everything found so far takes all of it back. -/
theorem InOrder.takeBack (report : Diagnostic) (ordered : InOrder found)
    (takes : ∀ one ∈ found, report.TakesBack one) :
    InOrder (found ++ [report]) ∧ ClearOf (report.begins + 1) (found ++ [report]) := by
  induction found with
  | nil => exact ⟨⟨trivial, trivial⟩, .inr (Nat.lt_succ_self _), trivial⟩
  | cons one found step =>
      have here := List.forall_mem_cons.1 takes
      obtain ⟨rest, clear⟩ := step ordered.2 here.2
      exact ⟨⟨ordered.1.append (.inr (.inl here.1)), rest⟩,
        .inl ⟨report, List.mem_append_right _ List.mem_cons_self, here.1⟩, clear⟩

/-- What does not begin behind an earlier finding comes behind a report that takes that one back, or
is one. -/
theorem Follows.takenBack (follows : Follows one (between ++ other :: behind))
    (early : other.begins ≤ one.begins) : TakenBack one between ∨ other.TakesBack one := by
  induction between with
  | nil =>
      rcases follows with takes | ⟨later, _⟩
      · exact .inr takes
      · exact absurd later (Nat.not_lt.2 early)
  | cons next between step =>
      rcases follows with takes | ⟨_, follows⟩
      · exact .inl ⟨next, List.mem_cons_self, takes⟩
      · refine (step follows).imp_left fun ⟨back, held, takes⟩ => ?_
        exact ⟨back, List.mem_cons_of_mem _ held, takes⟩

theorem InOrder.suffix (ordered : InOrder (first ++ second)) : InOrder second := by
  induction first with
  | nil => exact ordered
  | cons one first step => exact step ordered.2

end Findings

/-- How often the finding before is taken back. -/
def setbacks : (found : List Diagnostic) → Nat
  | [] => 0
  | [_] => 0
  | one :: next :: later => (if next.TakesBack one then 1 else 0) + setbacks (next :: later)

/-- Findings that begin one behind the other take up a place each, and a setback is worth a whole
text. -/
theorem InOrder.length_add_le {one : Diagnostic} {later : List Diagnostic} {size : Nat}
    (ordered : InOrder (one :: later)) (inside : ∀ other ∈ one :: later, other.begins < size) :
    (one :: later).length + one.begins ≤ size + size * setbacks (one :: later) := by
  induction later generalizing one with
  | nil =>
      have here := inside one List.mem_cons_self
      simp only [List.length_singleton, setbacks]
      omega
  | cons next later step =>
      have here := inside one List.mem_cons_self
      have bound := step ordered.2 (List.forall_mem_cons.1 inside).2
      rw [List.length_cons, setbacks]
      split
      · rw [Nat.mul_add, Nat.mul_one]
        omega
      · next stays =>
          rcases ordered.1 with takes | ⟨before, _⟩
          · exact absurd takes stays
          · rw [Nat.zero_add]
            omega

theorem InOrder.length_le {found : List Diagnostic} {size : Nat} (ordered : InOrder found)
    (inside : ∀ one ∈ found, one.begins < size) : found.length ≤ size * (setbacks found + 1) := by
  cases found with
  | nil => exact Nat.zero_le _
  | cons one later =>
      have bound := ordered.length_add_le inside
      rw [Nat.mul_succ]
      omega

/-! ### What is found before a reader stops -/

theorem Cursor.Advances.add_offset_le {start stop : Cursor} (advances : start.Advances least stop) :
    start.offset + least ≤ stop.offset := by
  obtain ⟨taken, long, _, same⟩ := advances
  have enough (text : List Char) : text.length ≤ byteLength text := by
    induction text with
    | nil => exact Nat.le_refl _
    | cons c rest step =>
        rw [List.length_cons, byteLength_cons]
        have := c.utf8Size_pos
        omega
  have := enough taken
  omega

/-- How far reading has got without doubt: where it stopped, or where a string was opened that is
not closed. -/
def Scan.reached? : Scan α → Option Nat
  | .done _ stop => some stop.offset
  | .refused => none
  | .halted opened _ => some opened

/-- What is found from a place on begins at least so many bytes behind it, in order, and before the
place where reading stops. -/
structure Reply.Ordered (least : Nat) (start : Cursor) (reply : Reply α) : Prop where
  advances : reply.outcome.Advances least start
  ordered : InOrder reply.findings
  ahead : ∀ one ∈ reply.findings, start.offset + least ≤ one.begins
  clear : ∀ place ∈ reply.outcome.reached?, ClearOf place reply.findings

def Reader.Ordered (least : Nat) (item : Reader α) : Prop :=
  ∀ cursor, (item cursor).Ordered least cursor

theorem Reader.Ordered.of_eq {item : Reader α} {cursor : Cursor} {reply : Reply α}
    (ordered : item.Ordered least) (read : item cursor = reply) : reply.Ordered least cursor :=
  read ▸ ordered cursor

/-- A reader that refuses has found nothing. -/
def Reader.RefusesClean (item : Reader α) : Prop :=
  ∀ ⦃cursor : Cursor⦄, (item cursor).outcome = .refused → (item cursor).findings = []

section Reply

variable {start middle : Cursor} {reply : Reply α} {found : List Diagnostic}

/-- A later place where reading goes on. -/
theorem Scan.Advances.reached_le {scan : Scan α} (advances : scan.Advances least start)
    {place : Nat} (reached : place ∈ scan.reached?) : start.offset ≤ place := by
  cases scan with
  | done value stop =>
      cases reached
      exact Cursor.Advances.offset_le advances
  | refused => cases reached
  | halted opened stop =>
      obtain ⟨behind, before, _, rfl, _⟩ := advances
      cases reached
      exact before.offset_le

theorem Reply.Ordered.ofScan {scan : Scan α} (advances : scan.Advances least start) :
    (Reply.mk [] scan).Ordered least start :=
  ⟨advances, trivial, List.forall_mem_nil _, fun _ _ => trivial⟩

theorem Reply.Ordered.mono {fewer : Nat} (ordered : reply.Ordered least start)
    (less : fewer ≤ least) : reply.Ordered fewer start :=
  ⟨ordered.advances.mono less, ordered.ordered,
    fun one held => Nat.le_trans (Nat.add_le_add_left less _) (ordered.ahead one held),
    ordered.clear⟩

/-- What is found on the way to a place comes before what is found from there on. -/
theorem Reply.Ordered.afterFindings {more : Nat} (passed : start.Advances least middle)
    (before : InOrder found) (ahead : ∀ one ∈ found, start.offset + least ≤ one.begins)
    (clear : ClearOf middle.offset found) (later : reply.Ordered more middle) :
    (reply.afterFindings found).Ordered least start where
  advances := (later.advances.behind passed).mono (Nat.le_add_right _ _)
  ordered := before.append clear later.ordered fun next held =>
    Nat.le_trans (Nat.le_add_right _ _) (later.ahead next held)
  ahead one held := by
    rcases List.mem_append.1 held with old | new
    · exact ahead one old
    · have passed := passed.add_offset_le
      have behind := later.ahead one new
      omega
  clear place reached := clear.append (later.clear place reached)
    (later.advances.reached_le reached)

theorem Reply.Ordered.behind {items : List α} {reply : Reply (List α)}
    (ordered : reply.Ordered least start) : (reply.behind items).Ordered least start := by
  refine ⟨reply.behind_advances ordered.advances, ordered.ordered, ordered.ahead, ?_⟩
  obtain ⟨found, scan⟩ := reply
  cases scan with
  | done more stop => exact ordered.clear
  | refused => exact ordered.clear
  | halted opened stop => exact ordered.clear

end Reply

namespace Reader

section Rules

variable {first second item : Reader α} {next : α → Reader β} {scanner : Scanner α} {more : Nat}

theorem Ordered.mono (ordered : item.Ordered least) (less : more ≤ least) : item.Ordered more :=
  fun cursor => (ordered cursor).mono less

theorem ordered_ofScanner (advances : scanner.Advances least) :
    (ofScanner scanner).Ordered least :=
  fun cursor => .ofScan (advances cursor)

theorem ordered_pure (value : α) : Ordered 0 (pure value : Reader α) :=
  fun cursor => .ofScan (.refl cursor)

/-- What comes first decides how far ahead the findings are. -/
theorem Ordered.bind (one : first.Ordered least) (two : ∀ value, (next value).Ordered more) :
    Ordered least (first >>= next) := by
  intro cursor
  have here := one cursor
  rw [bind_apply]
  generalize first cursor = reply at here ⊢
  obtain ⟨found, scan⟩ := reply
  cases scan with
  | done value stop =>
      exact .afterFindings here.advances here.ordered here.ahead (here.clear _ rfl) (two value stop)
  | refused => exact ⟨trivial, here.ordered, here.ahead, fun _ reached => by cases reached⟩
  | halted opened stop => exact ⟨here.advances, here.ordered, here.ahead, here.clear⟩

/-- A scanner that comes first moves the findings further ahead. -/
theorem Ordered.after (one : scanner.Advances least) (two : ∀ value, (next value).Ordered more) :
    Ordered (least + more) (ofScanner scanner >>= next) := by
  intro cursor
  have here := one cursor
  rw [bind_apply, ofScanner]
  cases read : scanner cursor with
  | done value stop =>
      rw [read] at here
      have later := two value stop
      refine ⟨later.advances.behind here, later.ordered, fun report held => ?_, later.clear⟩
      have passed := Cursor.Advances.add_offset_le here
      have behind := later.ahead report held
      omega
  | refused => exact .ofScan trivial
  | halted opened stop =>
      rw [read] at here
      exact .ofScan here

theorem Ordered.map (ordered : item.Ordered least) (f : α → β) : Ordered least (f <$> item) :=
  ordered.bind fun value => ordered_pure (f value)

/-- Nothing is left of an attempt that is refused, so another one may be made. -/
theorem Ordered.orTry (one : first.Ordered least) (clean : first.RefusesClean)
    (two : second.Ordered least) : (Reader.orTry first second).Ordered least := by
  intro cursor
  have here := one cursor
  have clean := @clean cursor
  rw [Reader.orTry]
  generalize first cursor = reply at here clean ⊢
  obtain ⟨found, scan⟩ := reply
  cases scan with
  | done value stop => exact here
  | halted opened stop => exact here
  | refused =>
      obtain rfl : found = [] := clean rfl
      exact two cursor

theorem Ordered.optional (ordered : item.Ordered least) (clean : item.RefusesClean) :
    (Reader.optional item).Ordered 0 := by
  intro cursor
  have here := (ordered cursor).mono (Nat.zero_le _)
  have clean := @clean cursor
  rw [Reader.optional]
  generalize item cursor = reply at here clean ⊢
  obtain ⟨found, scan⟩ := reply
  cases scan with
  | done value stop => exact ⟨here.advances, here.ordered, here.ahead, here.clear⟩
  | halted opened stop => exact ⟨here.advances, here.ordered, here.ahead, here.clear⟩
  | refused =>
      obtain rfl : found = [] := clean rfl
      exact .ofScan (.refl cursor)

theorem Ordered.located (ordered : item.Ordered least) : (Reader.located item).Ordered least := by
  intro cursor
  have here := ordered cursor
  rw [Reader.located]
  generalize item cursor = reply at here ⊢
  obtain ⟨found, scan⟩ := reply
  cases scan with
  | done value stop => exact ⟨here.advances, here.ordered, here.ahead, here.clear⟩
  | refused => exact ⟨trivial, here.ordered, here.ahead, fun _ reached => by cases reached⟩
  | halted opened stop => exact ⟨here.advances, here.ordered, here.ahead, here.clear⟩

theorem RefusesClean.ofScanner (scanner : Scanner α) : (ofScanner scanner).RefusesClean :=
  fun _ _ => rfl

theorem RefusesClean.after (clean : ∀ value, (next value).RefusesClean) :
    RefusesClean (Reader.ofScanner scanner >>= next) := by
  intro cursor
  rw [bind_apply, Reader.ofScanner]
  cases scanner cursor with
  | done value stop => exact @clean value stop
  | refused => exact fun _ => rfl
  | halted opened stop => exact fun _ => rfl

theorem RefusesClean.map (clean : item.RefusesClean) (f : α → β) : RefusesClean (f <$> item) := by
  intro cursor
  have clean := @clean cursor
  change (andThen item _ cursor).outcome = _ → (andThen item _ cursor).findings = _
  rw [andThen]
  generalize item cursor = reply at clean ⊢
  obtain ⟨found, scan⟩ := reply
  cases scan with
  | done value stop => exact fun same => by cases same
  | refused => exact fun _ => clean rfl
  | halted opened stop => exact fun same => by cases same

theorem RefusesClean.orTry (one : first.RefusesClean) (two : second.RefusesClean) :
    (Reader.orTry first second).RefusesClean := by
  intro cursor
  have one := @one cursor
  rw [Reader.orTry]
  generalize first cursor = reply at one ⊢
  obtain ⟨found, scan⟩ := reply
  cases scan with
  | done value stop => exact fun same => by cases same
  | halted opened stop => exact fun same => by cases same
  | refused =>
      obtain rfl : found = [] := one rfl
      exact @two cursor

theorem RefusesClean.located (clean : item.RefusesClean) : (Reader.located item).RefusesClean := by
  intro cursor
  have clean := @clean cursor
  rw [Reader.located]
  generalize item cursor = reply at clean ⊢
  obtain ⟨found, scan⟩ := reply
  cases scan with
  | done value stop => exact fun same => by cases same
  | refused => exact fun _ => clean rfl
  | halted opened stop => exact fun same => by cases same

end Rules

end Reader

/-! ### Statements -/

section Statements

variable {statement : Reader Statement}

theorem Reader.Ordered.advances (ordered : statement.Ordered least) : statement.Advances least :=
  fun cursor => (ordered cursor).advances

theorem Reader.Ordered.wholeStatement (ordered : statement.Ordered least) :
    (wholeStatement statement).Ordered least :=
  ordered.located.bind fun _ => (Reader.ordered_ofScanner advances_statementEnd).bind fun _ =>
    Reader.ordered_pure _

/-- The reports on the text that a turn could not read come in order with those before. -/
theorem Turns.ordered {nested : Bool} {bound : Nat} {cursor : Cursor}
    {reply : Reply (List (Spanned Statement))} (turns : Turns statement nested bound cursor reply)
    (ordered : statement.Ordered 1) : reply.Ordered 0 cursor := by
  have gap : ∀ cursor : Cursor, cursor.Advances 0 (cursor.skipGap isSeparator) :=
    fun cursor => cursor.skipGap_advances isSeparator
  have ahead : ∀ {cursor : Cursor} {found : List Diagnostic} {scan : Scan (Spanned Statement)},
      wholeStatement statement (cursor.skipGap isSeparator) = ⟨found, scan⟩ →
      ∀ one ∈ found, cursor.offset + 0 ≤ one.begins := fun {cursor _ _} read one held =>
    Nat.le_trans (gap cursor).offset_le (Nat.le_trans (Nat.le_add_right _ _)
      ((ordered.wholeStatement.of_eq read).ahead one held))
  induction turns with
  | spent => exact .ofScan trivial
  | @stop _ cursor => exact .ofScan (gap cursor)
  | @done _ cursor stop found item _ _ read _ step =>
      have whole := ordered.wholeStatement.of_eq read
      have passed := (gap cursor).trans (whole.advances.mono (Nat.zero_le 1))
      exact .afterFindings passed whole.ordered (ahead read) (whole.clear _ rfl) step.behind
  | @halted _ _ cursor stop found _ _ read _ step =>
      have whole := ordered.wholeStatement.of_eq read
      rw [skipRemainder_of_halted whole.advances] at step
      obtain ⟨quote, before, behind, rfl, _⟩ := whole.advances
      have passed := (gap cursor).trans ((before.trans behind).mono (Nat.zero_le _))
      have clear := whole.clear _ rfl
      have here : ClearOf stop.offset [unterminatedString quote.offset stop] :=
        ⟨.inr behind.add_offset_le, trivial⟩
      refine .afterFindings passed ?_ ?_ (clear.append here behind.offset_le) step
      · refine whole.ordered.append clear ⟨trivial, trivial⟩ ?_
        exact List.forall_mem_singleton.2 (Nat.le_refl _)
      · refine List.forall_mem_append.2 ⟨ahead read, List.forall_mem_singleton.2 ?_⟩
        exact Nat.le_trans (gap cursor).offset_le before.offset_le
  | @refused _ cursor stop found _ more read skipped _ step =>
      have whole := ordered.wholeStatement.of_eq read
      have beyond := skipped ▸ skipStatement_advances nested (atEnd_of_more more)
      -- everything found in the attempt begins behind the place of the report
      obtain ⟨inOrder, clear⟩ := whole.ordered.takeBack
        (unexpectedToken ((cursor.skipGap isSeparator).spanTo stop))
        fun one held => ⟨rfl, whole.ahead one held⟩
      refine .afterFindings ((gap cursor).trans (beyond.mono (Nat.zero_le 1))) inOrder ?_
        (clear.mono beyond.add_offset_le) step
      exact List.forall_mem_append.2 ⟨ahead read, List.forall_mem_singleton.2 (gap cursor).offset_le⟩

theorem ordered_statementList (ordered : statement.Ordered 1) (nested : Bool) :
    (statementList statement nested).Ordered 0 :=
  fun cursor => (turns_statementTurns statement nested _ cursor).ordered ordered

theorem ordered_namespaceWith (ordered : statement.Ordered 1) :
    (namespaceWith statement).Ordered 1 := by
  refine .located (.mono (.after (Scanner.advances_leadingName _) fun _ =>
    .after (Scanner.advances_exactly '[') fun _ => (ordered_statementList ordered true).bind fun _ =>
    (Reader.ordered_ofScanner (Scanner.advances_closing ']')).bind fun _ =>
    (Reader.ordered_ofScanner Scanner.advances_trailingArguments).bind fun _ =>
    (Reader.ordered_ofScanner Scanner.advances_trailingStyle).bind fun _ =>
    Reader.ordered_pure _) (Nat.le_refl 1))

/-- Behind its statements, a namespace is not refused any more. -/
theorem closing_of_noMoreStatements {stop : Cursor} (ends : noMoreStatements true stop = true) :
    ∃ place, Scanner.closing ']' stop = .done () place := by
  obtain ⟨rest, offset⟩ := stop
  cases rest with
  | nil => exact ⟨_, rfl⟩
  | cons c rest =>
      obtain rfl : c = ']' := by simpa [noMoreStatements, Cursor.atEnd] using ends
      exact ⟨_, rfl⟩

/-- The scanner reads what is there, and nothing if it is not there. -/
def Scanner.Accepts (item : Scanner α) : Prop :=
  ∀ cursor, item cursor ≠ .refused

theorem Scanner.accepts_optional (item : Scanner α) : (Scanner.optional item).Accepts := by
  intro cursor
  rw [Scanner.optional]
  cases item cursor with
  | done value stop => exact fun same => by cases same
  | refused => exact fun same => by cases same
  | halted opened stop => exact fun same => by cases same

theorem Scanner.Accepts.map {item : Scanner α} (accepts : item.Accepts) (f : α → β) :
    Scanner.Accepts (f <$> item) := by
  intro cursor
  change (Scanner.andThen item _ cursor) ≠ _
  rw [Scanner.andThen]
  cases read : item cursor with
  | done value stop => exact fun same => by cases same
  | refused => exact absurd read (accepts cursor)
  | halted opened stop => exact fun same => by cases same

theorem Scanner.Accepts.bind_outcome {first : Scanner α} {next : α → Reader β}
    (accepts : first.Accepts) (later : ∀ value stop, (next value stop).outcome ≠ .refused)
    (cursor : Cursor) : ((Reader.ofScanner first >>= next) cursor).outcome ≠ .refused := by
  rw [Reader.bind_apply, Reader.ofScanner]
  cases read : first cursor with
  | done value stop => exact later value stop
  | refused => exact absurd read (accepts cursor)
  | halted opened stop => exact fun same => by cases same

theorem namespaceWith_refusesClean (advances : statement.Advances 1) :
    (namespaceWith statement).RefusesClean := by
  refine .located (.after fun name => .after fun _ => fun cursor => ?_)
  obtain ⟨items, stop, read, ends⟩ :=
    (turns_statementTurns statement true (cursor.rest.length + 1) cursor).finishes advances
      (Nat.lt_succ_self _)
  obtain ⟨place, closed⟩ := closing_of_noMoreStatements ends
  rw [Reader.bind_apply]
  change (statementList statement true cursor).outcome = _ at read
  generalize statementList statement true cursor = reply at read ⊢
  obtain ⟨found, scan⟩ := reply
  subst read
  dsimp only
  rw [Reader.bind_apply, Reader.ofScanner, closed]
  intro refused
  refine absurd refused (Scanner.Accepts.bind_outcome ?_ (fun _ => ?_) place)
  · exact (Scanner.accepts_optional _).map _
  · exact Scanner.Accepts.bind_outcome (Scanner.accepts_optional _) fun _ _ same => by
      cases same

theorem producerWith_refusesClean (advances : statement.Advances 1) :
    (producerWith statement).RefusesClean :=
  .orTry (.ofScanner _) (.orTry (.map (namespaceWith_refusesClean advances) _) (.ofScanner _))

theorem ordered_producerWith (ordered : statement.Ordered 1) :
    (producerWith statement).Ordered 1 :=
  (Reader.ordered_ofScanner (Scanner.advances_importClause.map _)).orTry (.ofScanner _) <|
    ((ordered_namespaceWith ordered).map _).orTry
      (.map (namespaceWith_refusesClean ordered.advances) _)
      (Reader.ordered_ofScanner (Scanner.advances_call.map _))

theorem ordered_assignmentWith (ordered : statement.Ordered 1) :
    (assignmentWith statement).Ordered 1 := by
  refine .mono (.after Scanner.advances_targets fun left => .after Scanner.advances_equals fun _ =>
    .bind ((ordered_producerWith ordered).optional (producerWith_refusesClean ordered.advances))
      fun found => (?_ : Reader.Ordered 0 _)) (Nat.le_refl 1)
  cases found with
  | some producer => exact Reader.ordered_pure _
  | none => exact (Reader.ordered_ofScanner (Scanner.advances_aliasOf left)).mono (Nat.zero_le _)

theorem assignmentWith_refusesClean (advances : statement.Advances 1) :
    (assignmentWith statement).RefusesClean := by
  refine .after fun left => .after fun _ => fun cursor => ?_
  have clean := @producerWith_refusesClean _ advances cursor
  rw [Reader.bind_apply, Reader.optional]
  generalize producerWith statement cursor = reply at clean ⊢
  obtain ⟨found, scan⟩ := reply
  cases scan with
  | done value stop => exact fun same => by cases same
  | halted opened stop => exact fun same => by cases same
  | refused =>
      obtain rfl : found = [] := clean rfl
      exact fun _ => rfl

theorem ordered_statementWith (ordered : statement.Ordered 1) :
    (statementWith statement).Ordered 1 :=
  (Reader.ordered_ofScanner Scanner.advances_namedStyle).orTry (.ofScanner _) <|
    (Reader.ordered_ofScanner Scanner.advances_styleBinding).orTry (.ofScanner _) <|
    (Reader.ordered_ofScanner (Scanner.advances_importClause.map _)).orTry (.ofScanner _) <|
    (ordered_assignmentWith ordered).orTry (assignmentWith_refusesClean ordered.advances) <|
    ((ordered_namespaceWith ordered).map _).orTry
      (.map (namespaceWith_refusesClean ordered.advances) _) <|
    (Reader.ordered_ofScanner (Scanner.advances_call.map _)).orTry (.ofScanner _)
      (Reader.ordered_ofScanner (Scanner.advances_qualifiedName.map _))

theorem ordered_statementWithin (depth : Nat) :
    Reader.Ordered 1 fun cursor => statementWithin depth cursor := by
  induction depth with
  | zero => exact fun _ => .ofScan trivial
  | succ depth step => exact ordered_statementWith step

end Statements

end Parser

namespace Recipe

open RecipeGraph.Parser

theorem inOrder_parseLenient (source : String) : InOrder (parseLenient source).2 := by
  have ordered := (ordered_statementList (ordered_statementWithin (Cursor.ofText source).rest.length)
    false (.ofText source)).ordered
  unfold parseLenient
  dsimp only
  split
  · exact ordered
  · exact ordered

/-- A stretch of text is reported again only behind a report on a statement that was taken back, and
the number of such reports is what the number of all reports depends on. -/
theorem parseLenient_reports (source : String) :
    (∀ before one between other behind,
      (parseLenient source).2 = before ++ one :: (between ++ other :: behind) →
        other.primary? = one.primary? → TakenBack one between) ∧
    (parseLenient source).2.length ≤
      (source.utf8ByteSize + 1) * (setbacks (parseLenient source).2 + 1) := by
  have ordered := inOrder_parseLenient source
  constructor
  · intro before one between other behind same shown
    rw [same] at ordered
    have early : other.begins = one.begins := by rw [Diagnostic.begins, shown, Diagnostic.begins]
    rcases ordered.suffix.1.takenBack (Nat.le_of_eq early) with taken | ⟨_, before⟩
    · exact taken
    · exact absurd early (Nat.ne_of_lt before)
  · have points := (parseLenient_faithful source).2
    exact ordered.length_le fun one held => Nat.lt_succ_of_le (points one held).begins_le

/-- A namespace with something behind it on its last line: the statement is taken back, and what
was reported inside is reported again. -/
def followed : String := "ns[\n!!\n] junk\n"

theorem parseLenient_reports_of_followed :
    ∃ one second other last, (parseLenient followed).2 = [one, second, other, last] ∧
      other.primary? = one.primary? ∧ TakenBack one [second] ∧
      setbacks (parseLenient followed).2 = 1 := by
  have shown : (parseLenient followed).2.map Diagnostic.primary? =
      [some ⟨4, 6⟩, some ⟨0, 3⟩, some ⟨4, 6⟩, some ⟨7, 13⟩] := by decide +kernel
  obtain ⟨one, _, same, first, shown⟩ := List.map_eq_cons_iff.1 shown
  obtain ⟨second, _, rfl, _, shown⟩ := List.map_eq_cons_iff.1 shown
  obtain ⟨other, _, rfl, third, shown⟩ := List.map_eq_cons_iff.1 shown
  obtain ⟨last, _, rfl, _, shown⟩ := List.map_eq_cons_iff.1 shown
  obtain rfl := List.map_eq_nil_iff.1 shown
  have again : other.primary? = one.primary? := third.trans first.symm
  exact ⟨one, second, other, last, same, again,
    (parseLenient_reports followed).1 [] one [second] other [last] same again, by decide +kernel⟩

end Recipe

end RecipeGraph
