/-
# No text is dropped silently

Reading recovers from what it does not understand, and what it gives up is not in the recipe. Yet
every character of the text is accounted for: it belongs to the span of a statement, it separates
statements, or it is part of a stretch that an error reports. That holds for the whole text and
again inside every namespace that is read, at any depth.

A string that is not closed halts the reading at the end of its line, so there is nothing more to
skip, and the report on the string reaches up to where reading goes on. Findings are never undone,
not even when the attempt that made them is; what an accepted namespace has reported about its own
text is therefore still there in the end.
-/

import RecipeGraph.Proofs.Parser.Findings
import RecipeGraph.Proofs.Parser.Spacing
import RecipeGraph.Proofs.Parser.Written

namespace RecipeGraph

namespace Parser

/-! ### What stands between two statements -/

/-- A stretch of text that an error reports: either all of it is unexpected, or a string in it is
not closed up to its end. -/
def Abandoned (found : List Diagnostic) (start stop : Cursor) : Prop :=
  start.Advances 1 stop ∧ ∃ diagnostic ∈ found, diagnostic.severity = .error ∧
    (diagnostic.code = some .unexpectedToken ∧
        diagnostic.labels.map Label.span = [start.spanTo stop] ∨
      diagnostic.code = some .unterminatedString ∧
        ∃ place : Cursor, start.Advances 0 place ∧ place.Advances 1 stop ∧
          diagnostic.labels.map Label.span = [place.spanTo stop])

/-- A text without a statement: separators and reported stretches, in any number and order. -/
inductive Between (found : List Diagnostic) : (start stop : Cursor) → Prop
  | nothing (place : Cursor) : Between found place place
  | spacing {start middle stop : Cursor} {text : List Char} (reached : start.Reaches text middle)
      (spaced : Spacing isSeparator text middle.rest) (later : Between found middle stop) :
      Between found start stop
  | abandoned {start middle stop : Cursor} (here : Abandoned found start middle)
      (later : Between found middle stop) : Between found start stop

/-- The name of a namespace, if it has one, and its opening bracket. -/
def Opens (name : Option (Spanned String)) (start opened : Cursor) : Prop :=
  match name with
  | none => start.Reaches ['['] opened
  | some name => ∃ gap, Filling isInlineBlank gap ∧
      start.Reaches (name.value.toList ++ gap ++ ['[']) opened

/-- A namespace with a given name, what stands in its brackets, and what comes behind them. At the
end of the text the closing bracket may be missing. -/
def Enclosed (name : Option (Spanned String)) (inside : Cursor → Cursor → Prop)
    (start stop : Cursor) : Prop :=
  ∃ opened closed, Opens name start opened ∧ inside opened closed ∧
    Ahead (· = ']') closed.rest ∧ closed.Advances 0 stop

end Parser

open RecipeGraph.Parser

mutual

/-- Every character is accounted for in the body of every namespace that a statement contains. -/
def Statement.Accounted (found : List Diagnostic) : Statement → Cursor → Cursor → Prop
  | .level ⟨name, statements, _, _⟩, start, stop =>
    Enclosed name (Statement.listAccounted found statements) start stop
  | .assignment _ (.level ⟨⟨name, statements, _, _⟩, span⟩), start, stop =>
    ∃ here : Cursor, start.Advances 1 here ∧ span = here.spanTo stop ∧
      Enclosed name (Statement.listAccounted found statements) here stop
  | _, _, _ => True
termination_by structural statement => statement

/-- A stretch of text consists of the spans of the statements, one after the other, and of
separators and reported stretches before, between and behind them. -/
def Statement.listAccounted (found : List Diagnostic) :
    List (Spanned Statement) → Cursor → Cursor → Prop
  | [], start, stop => Between found start stop
  | ⟨statement, span⟩ :: rest, start, stop => ∃ here behind : Cursor,
    Between found start here ∧ here.Advances 1 behind ∧ span = here.spanTo behind ∧
      statement.Accounted found here behind ∧ Statement.listAccounted found rest behind stop
termination_by structural statements => statements

end

namespace Parser

/-! ### What was read before a part was done -/

section Done

variable {α β : Type} {cursor stop : Cursor} {found : List Diagnostic}

theorem Scanner.bind_done {first : Scanner α} {next : α → Scanner β} {value : β}
    (read : (first >>= next) cursor = .done value stop) :
    ∃ before middle, first cursor = .done before middle ∧ next before middle = .done value stop := by
  rw [Scanner.bind_apply] at read
  cases same : first cursor with
  | done before middle =>
      rw [same] at read
      exact ⟨before, middle, rfl, read⟩
  | refused =>
      rw [same] at read
      cases read
  | halted opened place =>
      rw [same] at read
      cases read

theorem Scanner.map_done {item : Scanner α} {f : α → β} {value : β}
    (read : (f <$> item) cursor = .done value stop) : ∃ one, value = f one := by
  obtain ⟨one, middle, _, last⟩ := Scanner.bind_done read
  cases last
  exact ⟨one, rfl⟩

theorem Scanner.Advances.of_done {item : Scanner α} {least : Nat} (advances : item.Advances least)
    {value : α} (read : item cursor = .done value stop) : cursor.Advances least stop := by
  have passed := advances cursor
  rwa [read] at passed

theorem Scanner.optional_done {item : Scanner α} {value : Option α}
    (read : Scanner.optional item cursor = .done value stop) :
    (∃ one, value = some one ∧ item cursor = .done one stop) ∨ value = none ∧ stop = cursor := by
  rw [Scanner.optional] at read
  cases same : item cursor with
  | done one place =>
      rw [same] at read
      cases read
      exact .inl ⟨one, rfl, rfl⟩
  | refused =>
      rw [same] at read
      cases read
      exact .inr ⟨rfl, rfl⟩
  | halted opened place =>
      rw [same] at read
      cases read

theorem Scanner.located_done {item : Scanner α} {value : Spanned α}
    (read : Scanner.located item cursor = .done value stop) :
    item cursor = .done value.value stop ∧ value.span = cursor.spanTo stop := by
  rw [Scanner.located] at read
  cases same : item cursor with
  | done one place =>
      rw [same] at read
      cases read
      exact ⟨rfl, rfl⟩
  | refused =>
      rw [same] at read
      cases read
  | halted opened place =>
      rw [same] at read
      cases read

theorem Reader.bind_done {first : Reader α} {next : α → Reader β} {value : β}
    (read : (first >>= next) cursor = ⟨found, .done value stop⟩) :
    ∃ before middle found₁ found₂, first cursor = ⟨found₁, .done before middle⟩ ∧
      next before middle = ⟨found₂, .done value stop⟩ ∧ found = found₁ ++ found₂ := by
  rw [Reader.bind_apply] at read
  cases same : first cursor with
  | mk found₁ scan =>
      rw [same] at read
      cases scan with
      | done before middle =>
          injection read with findings outcome
          exact ⟨before, middle, found₁, (next before middle).findings, rfl, by rw [← outcome],
            findings.symm⟩
      | refused => cases read
      | halted opened place => cases read

/-- A scanner finds nothing, so all findings are those of what comes behind it. -/
theorem Reader.scanned_done {first : Scanner α} {next : α → Reader β} {value : β}
    (read : (Reader.ofScanner first >>= next) cursor = ⟨found, .done value stop⟩) :
    ∃ before middle, first cursor = .done before middle ∧
      next before middle = ⟨found, .done value stop⟩ := by
  obtain ⟨before, middle, found₁, found₂, scanned, later, rfl⟩ := Reader.bind_done read
  injection scanned with findings outcome
  subst findings
  exact ⟨before, middle, outcome, later⟩

theorem Reader.map_done {item : Reader α} {f : α → β} {value : β}
    (read : (f <$> item) cursor = ⟨found, .done value stop⟩) :
    ∃ one, item cursor = ⟨found, .done one stop⟩ ∧ value = f one := by
  obtain ⟨one, middle, found₁, found₂, first, last, rfl⟩ := Reader.bind_done read
  cases last
  exact ⟨one, by rw [first, List.append_nil], rfl⟩

theorem Reader.orTry_done {first second : Reader α} {value : α}
    (read : Reader.orTry first second cursor = ⟨found, .done value stop⟩) :
    first cursor = ⟨found, .done value stop⟩ ∨
      ∃ found₁ found₂, second cursor = ⟨found₂, .done value stop⟩ ∧ found = found₁ ++ found₂ := by
  rw [Reader.orTry] at read
  cases same : first cursor with
  | mk found₁ scan =>
      rw [same] at read
      cases scan with
      | done one place => exact .inl read
      | refused =>
          injection read with findings outcome
          exact .inr ⟨found₁, (second cursor).findings, by rw [← outcome], findings.symm⟩
      | halted opened place => cases read

theorem Reader.optional_done {item : Reader α} {value : Option α}
    (read : Reader.optional item cursor = ⟨found, .done value stop⟩) :
    (∃ one, value = some one ∧ item cursor = ⟨found, .done one stop⟩) ∨
      value = none ∧ stop = cursor := by
  rw [Reader.optional] at read
  cases same : item cursor with
  | mk found₁ scan =>
      rw [same] at read
      cases scan with
      | done one place =>
          cases read
          exact .inl ⟨one, rfl, rfl⟩
      | refused =>
          cases read
          exact .inr ⟨rfl, rfl⟩
      | halted opened place => cases read

theorem Reader.located_done {item : Reader α} {value : Spanned α}
    (read : Reader.located item cursor = ⟨found, .done value stop⟩) :
    item cursor = ⟨found, .done value.value stop⟩ ∧ value.span = cursor.spanTo stop := by
  rw [Reader.located] at read
  cases same : item cursor with
  | mk found₁ scan =>
      rw [same] at read
      cases scan with
      | done one place =>
          cases read
          exact ⟨rfl, rfl⟩
      | refused => cases read
      | halted opened place => cases read

end Done

/-! ### More findings, and more text in front -/

section Between

variable {found more : List Diagnostic} {start middle stop : Cursor}

theorem Abandoned.mono (held : ∀ diagnostic ∈ found, diagnostic.severity = .error → diagnostic ∈ more)
    (here : Abandoned found start stop) : Abandoned more start stop := by
  obtain ⟨advances, diagnostic, old, error, reports⟩ := here
  exact ⟨advances, diagnostic, held diagnostic old error, error, reports⟩

theorem Between.mono (held : ∀ diagnostic ∈ found, diagnostic.severity = .error → diagnostic ∈ more)
    (between : Between found start stop) : Between more start stop := by
  induction between with
  | nothing place => exact .nothing place
  | spacing reached spaced later step => exact .spacing reached spaced step
  | abandoned here later step => exact .abandoned (here.mono held) step

theorem Between.trans (first : Between found start middle) (second : Between found middle stop) :
    Between found start stop := by
  induction first with
  | nothing place => exact second
  | spacing reached spaced later step => exact .spacing reached spaced (step second)
  | abandoned here later step => exact .abandoned here (step second)

/-- A gap is a text without a statement. -/
theorem Between.gap {blank : Char → Bool} (more : ∀ c, blank c = true → isSeparator c = true)
    (found : List Diagnostic) (cursor : Cursor) : Between found cursor (cursor.skipGap blank) := by
  obtain ⟨text, reached, spaced⟩ := cursor.skipGap_spacing blank
  exact .spacing reached (spaced.mono more) (.nothing _)

end Between

theorem Enclosed.mono {inside inside' : Cursor → Cursor → Prop} {name : Option (Spanned String)}
    {start stop : Cursor} (more : ∀ opened closed, inside opened closed → inside' opened closed)
    (enclosed : Enclosed name inside start stop) : Enclosed name inside' start stop := by
  obtain ⟨opened, closed, opens, within, closes⟩ := enclosed
  exact ⟨opened, closed, opens, more opened closed within, closes⟩

end Parser

section More

variable {found more : List Diagnostic}

mutual

/-- More findings account for as much. -/
theorem Statement.Accounted.mono
    (held : ∀ diagnostic ∈ found, diagnostic.severity = .error → diagnostic ∈ more) :
    ∀ {statement : Statement} {start stop : Cursor}, statement.Accounted found start stop →
      statement.Accounted more start stop
  | .level ⟨_, _, _, _⟩, _, _, accounted =>
    Enclosed.mono (fun _ _ => Statement.listAccounted.mono held) accounted
  | .assignment _ (.level ⟨⟨_, _, _, _⟩, _⟩), _, _, ⟨here, advances, same, accounted⟩ =>
    ⟨here, advances, same, Enclosed.mono (fun _ _ => Statement.listAccounted.mono held) accounted⟩
  | .assignment _ (.call _), _, _, _ => trivial
  | .assignment _ (.fetched _), _, _, _ => trivial
  | .call _, _, _, _ => trivial
  | .alias _ _, _, _, _ => trivial
  | .namedStyle _ _, _, _, _ => trivial
  | .styleBinding _ _, _, _, _ => trivial
  | .fetched _, _, _, _ => trivial
  | .reference _, _, _, _ => trivial

theorem Statement.listAccounted.mono
    (held : ∀ diagnostic ∈ found, diagnostic.severity = .error → diagnostic ∈ more) :
    ∀ {statements : List (Spanned Statement)} {start stop : Cursor},
      Statement.listAccounted found statements start stop →
        Statement.listAccounted more statements start stop
  | [], _, _, between => Between.mono held between
  | ⟨_, _⟩ :: _, _, _, ⟨here, behind, before, advances, same, accounted, later⟩ =>
    ⟨here, behind, before.mono held, advances, same, Statement.Accounted.mono held accounted,
      Statement.listAccounted.mono held later⟩

end

/-- Separators and reported stretches may come before the first statement. -/
theorem Statement.listAccounted.after {statements : List (Spanned Statement)}
    {start middle stop : Cursor} (before : Between found start middle)
    (accounted : Statement.listAccounted found statements middle stop) :
    Statement.listAccounted found statements start stop := by
  cases statements with
  | nil => exact before.trans accounted
  | cons item rest =>
      obtain ⟨here, behind, between, later⟩ := accounted
      exact ⟨here, behind, before.trans between, later⟩

end More

namespace Parser

/-! ### What is read is accounted for -/

theorem Scanner.one_done {accept : Char → Bool} {cursor stop : Cursor} {c : Char}
    (read : Scanner.one accept cursor = .done c stop) : accept c = true ∧ cursor.Reaches [c] stop := by
  obtain ⟨rest, offset⟩ := cursor
  cases rest with
  | nil => cases read
  | cons first rest =>
      rw [Scanner.one] at read
      split at read
      · next held =>
          cases read
          exact ⟨held, Cursor.Reaches.cons (.refl _)⟩
      · cases read

theorem Scanner.exactly_done {expected : Char} {cursor stop : Cursor}
    (read : Scanner.exactly expected cursor = .done () stop) : cursor.Reaches [expected] stop := by
  obtain ⟨c, middle, first, last⟩ := Scanner.bind_done read
  obtain ⟨same, reached⟩ := Scanner.one_done first
  cases last
  rwa [eq_of_beq same] at reached

theorem identifier_done {cursor stop : Cursor} {name : Spanned String}
    (read : identifier cursor = .done name stop) : cursor.Reaches name.value.toList stop := by
  obtain ⟨c, middle, first, last⟩ := Scanner.bind_done (Scanner.located_done read).1
  obtain ⟨others, behind, run, last⟩ := Scanner.bind_done last
  have taken := middle.takeWhile_reaches isNamePart
  rw [Scanner.run] at run
  cases run
  injection last with same stopped
  rw [← same, ← stopped, String.toList_ofList]
  exact (Scanner.one_done first).2.trans taken

/-- A namespace is opened behind its name and a gap without a comment that is not closed. -/
theorem opens_of_done {cursor middle opened : Cursor} {name : Option (Spanned String)}
    (named : leadingName (Cursor.skipGap isInlineBlank) cursor = .done name middle)
    (bracket : Scanner.exactly '[' middle = .done () opened) : Opens name cursor opened := by
  have reached := Scanner.exactly_done bracket
  rcases Scanner.optional_done named with ⟨word, rfl, read⟩ | ⟨rfl, rfl⟩
  · obtain ⟨word', behind, name, rest⟩ := Scanner.bind_done read
    obtain ⟨_, stop, moved, last⟩ := Scanner.bind_done rest
    cases moved
    cases last
    obtain ⟨gap, skipped, spaced⟩ := behind.skipGap_spacing isInlineBlank
    have first : (behind.skipGap isInlineBlank).rest.head? = some '[' := by rw [reached.1]; rfl
    exact ⟨gap, spaced.filling first (by decide),
      ((identifier_done name).trans skipped).trans reached⟩
  · exact reached

/-- The closing bracket may be missing at the end of the text, and nothing else stands there. -/
theorem closing_ahead {delimiter : Char} {cursor stop : Cursor}
    (read : Scanner.closing delimiter cursor = .done () stop) :
    Ahead (· = delimiter) cursor.rest := by
  rw [Scanner.closing] at read
  split at read
  · next ends =>
      rw [Cursor.atEnd, List.isEmpty_iff] at ends
      rw [ends]
      intro c first
      cases first
  · rw [(Scanner.exactly_done read).1]
    exact fun c first => (Option.some.inj first).symm

/-- Whatever statement the reader reads, every namespace in it is accounted for. -/
def Reader.Accounts (statement : Reader Statement) : Prop :=
  ∀ ⦃cursor stop : Cursor⦄ ⦃found : List Diagnostic⦄ ⦃value : Statement⦄,
    statement cursor = ⟨found, .done value stop⟩ → value.Accounted found cursor stop

section Accounts

variable {statement : Reader Statement} {cursor stop : Cursor} {found : List Diagnostic}

theorem Reply.behind_done {α : Type} {items more : List α} {reply : Reply (List α)}
    (read : (reply.behind items).outcome = .done more stop) :
    ∃ later, reply.outcome = .done later stop ∧ more = items ++ later := by
  obtain ⟨findings, outcome⟩ := reply
  cases outcome with
  | done later place =>
      cases read
      exact ⟨later, rfl, rfl⟩
  | refused => cases read
  | halted opened place => cases read

/-- A whole statement is a statement and the gap behind it. -/
theorem wholeStatement_done {item : Spanned Statement}
    (read : wholeStatement statement cursor = ⟨found, .done item stop⟩) :
    ∃ behind, statement cursor = ⟨found, .done item.value behind⟩ ∧
      item.span = cursor.spanTo behind ∧ stop = behind.skipGap isInlineBlank := by
  obtain ⟨item', behind, found₁, found₂, first, rest, rfl⟩ := Reader.bind_done read
  obtain ⟨_, middle, ended, last⟩ := Reader.scanned_done rest
  cases last
  rw [statementEnd] at ended
  split at ended
  · cases ended
    obtain ⟨read, span⟩ := Reader.located_done first
    exact ⟨behind, by rw [read, List.append_nil], span, rfl⟩
  · cases ended

/-- What is skipped because no statement is there is reported as a whole. -/
theorem abandoned_of_refused {start stop : Cursor} (advances : start.Advances 1 stop)
    (reported : unexpectedToken (start.spanTo stop) ∈ found) : Abandoned found start stop :=
  ⟨advances, _, reported, rfl, .inl ⟨rfl, rfl⟩⟩

/-- A string that is not closed is reported up to the place where the reading goes on. -/
theorem abandoned_of_halted {start stop : Cursor} {opened : Nat}
    (halted : (Scan.halted opened stop : Scan α).Advances least start)
    (reported : unterminatedString opened stop ∈ found) : Abandoned found start stop := by
  obtain ⟨place, before, behind, rfl, _⟩ := halted
  exact ⟨(before.trans behind).mono (Nat.le_add_left _ _), _, reported, rfl,
    .inr ⟨rfl, place, before, behind, rfl⟩⟩

/-- Behind a string that is not closed, nothing is left of the line. -/
theorem skipRemainder_of_halted {start stop : Cursor} {opened : Nat}
    (halted : (Scan.halted opened stop : Scan α).Advances least start) (nested : Bool) :
    skipRemainder nested stop = stop := by
  obtain ⟨place, before, behind, same, ends⟩ := halted
  obtain ⟨rest, offset⟩ := stop
  cases rest with
  | nil => rfl
  | cons c rest =>
      obtain rfl : c = '\n' := ends c rfl
      rfl

/-- All text that a list of statements is read from is accounted for. -/
theorem Turns.accounted {nested : Bool} {bound : Nat} {reply : Reply (List (Spanned Statement))}
    {items : List (Spanned Statement)} (turns : Turns statement nested bound cursor reply)
    (advances : statement.Advances 1) (accounts : statement.Accounts)
    (read : reply.outcome = .done items stop) :
    Statement.listAccounted reply.findings items cursor stop := by
  have gap : ∀ found cursor, Between found cursor (cursor.skipGap isSeparator) :=
    .gap fun _ held => held
  induction turns generalizing items with
  | spent => cases read
  | stop =>
      cases read
      exact gap [] _
  | @done _ cursor middle found item _ _ attempt _ step =>
      obtain ⟨others, outcome, rfl⟩ := Reply.behind_done read
      obtain ⟨behind, first, span, rfl⟩ := wholeStatement_done attempt
      have later := (step outcome).mono fun _ held _ => List.mem_append_right found held
      exact ⟨cursor.skipGap isSeparator, behind, gap _ _, advances.of_eq first, span,
        (accounts first).mono fun _ held _ => List.mem_append_left _ held,
        later.after (.gap (fun _ => isSeparator_of_isInlineBlank) _ _)⟩
  | @halted _ opened cursor middle found _ _ attempt _ step =>
      have whole := advances.wholeStatement.of_eq attempt
      rw [skipRemainder_of_halted whole] at step
      have later := (step read).mono fun _ held _ =>
        List.mem_append_right (found ++ [unterminatedString opened middle]) held
      have lost : ∀ rest, Abandoned (found ++ [unterminatedString opened middle] ++ rest)
          (cursor.skipGap isSeparator) middle := fun rest => abandoned_of_halted whole (by simp)
      exact later.after ((gap _ _).trans (.abandoned (lost _) (.nothing _)))
  | @refused _ cursor middle found _ more _ skipped _ step =>
      have passed := skipped ▸ skipStatement_advances nested (atEnd_of_more more)
      have later := (step read).mono fun _ held _ => List.mem_append_right
        (found ++ [unexpectedToken ((cursor.skipGap isSeparator).spanTo middle)]) held
      have lost : ∀ rest, Abandoned
          (found ++ [unexpectedToken ((cursor.skipGap isSeparator).spanTo middle)] ++ rest)
          (cursor.skipGap isSeparator) middle := fun rest => abandoned_of_refused passed (by simp)
      exact later.after ((gap _ _).trans (.abandoned (lost _) (.nothing _)))

/-- A namespace that has been read encloses statements that are accounted for. -/
theorem namespaceWith_done (advances : statement.Advances 1) (accounts : statement.Accounts)
    {level : Spanned Namespace}
    (read : namespaceWith statement cursor = ⟨found, .done level stop⟩) :
    level.span = cursor.spanTo stop ∧
      Enclosed level.value.name (Statement.listAccounted found level.value.statements) cursor
        stop := by
  obtain ⟨whole, span⟩ := Reader.located_done read
  obtain ⟨name, middle, named, whole⟩ := Reader.scanned_done whole
  obtain ⟨_, opened, bracket, whole⟩ := Reader.scanned_done whole
  obtain ⟨statements, closed, found, found', inside, behind, rfl⟩ := Reader.bind_done whole
  obtain ⟨_, place, closing, behind⟩ := Reader.scanned_done behind
  obtain ⟨arguments, place', argued, behind⟩ := Reader.scanned_done behind
  obtain ⟨style, place'', styled, behind⟩ := Reader.scanned_done behind
  have passed : closed.Advances 0 place'' :=
    ((Scanner.advances_closing ']').of_done closing).trans
      ((Scanner.advances_trailingArguments.of_done argued).trans
        (Scanner.advances_trailingStyle.of_done styled))
  have accounted := (turns_statementTurns statement true _ opened).accounted advances accounts
    (congrArg Reply.outcome inside)
  rw [show (statementTurns statement true _ opened).findings = found from
    congrArg Reply.findings inside] at accounted
  injection behind with findings outcome
  injection outcome with same ended
  subst findings
  rw [← same, ← ended, List.append_nil]
  exact ⟨ended ▸ span, opened, closed, opens_of_done named bracket, accounted,
    closing_ahead closing, passed⟩

theorem Reader.Accounts.orTry {first second : Reader Statement} (one : first.Accounts)
    (two : second.Accounts) : (Reader.orTry first second).Accounts := by
  intro cursor stop found value read
  rcases Reader.orTry_done read with here | ⟨found₁, found₂, here, rfl⟩
  · exact one here
  · exact (two here).mono fun _ held _ => List.mem_append_right found₁ held

/-- Where there is no namespace, nothing needs to be accounted for. -/
theorem Scanner.accounts (item : Scanner α) {f : α → Statement}
    (plain : ∀ value found start stop, (f value).Accounted found start stop) :
    (Reader.ofScanner (f <$> item)).Accounts := by
  intro cursor stop found value read
  injection read with _ outcome
  obtain ⟨one, rfl⟩ := Scanner.map_done outcome
  exact plain one found cursor stop

/-- A style is declared under a name that has been read. -/
theorem namedStyle_done {value : Statement} (read : namedStyle cursor = .done value stop) :
    ∃ name style start behind, value = .namedStyle name style ∧
      identifier start = .done name behind := by
  obtain ⟨_, start, _, read⟩ := Scanner.bind_done read
  obtain ⟨name, behind, named, read⟩ := Scanner.bind_done read
  obtain ⟨_, _, _, read⟩ := Scanner.bind_done read
  obtain ⟨style, rfl⟩ := Scanner.map_done read
  exact ⟨name, style, start, behind, rfl, named⟩

theorem styleBinding_done {value : Statement} (read : styleBinding cursor = .done value stop) :
    ∃ keyword tags, value = .styleBinding keyword tags := by
  obtain ⟨_, _, _, read⟩ := Scanner.bind_done read
  obtain ⟨keyword, _, _, read⟩ := Scanner.bind_done read
  obtain ⟨_, _, _, read⟩ := Scanner.bind_done read
  obtain ⟨_, _, _, read⟩ := Scanner.bind_done read
  obtain ⟨tags, _, _, read⟩ := Scanner.bind_done read
  obtain ⟨_, rfl⟩ := Scanner.map_done read
  exact ⟨keyword, tags, rfl⟩

/-- An assignment has variables on the left, and on the right what produces its value, or else a
path. -/
theorem assignmentWith_done {value : Statement}
    (read : assignmentWith statement cursor = ⟨found, .done value stop⟩) :
    (∃ left producer here, value = .assignment left producer ∧ cursor.Advances 1 here ∧
      producerWith statement here = ⟨found, .done producer stop⟩) ∨
      ∃ left path, value = .alias left path := by
  obtain ⟨left, middle, lefts, read⟩ := Reader.scanned_done read
  obtain ⟨_, here, equals, read⟩ := Reader.scanned_done read
  have before : cursor.Advances 1 here :=
    (Scanner.advances_targets.of_done lefts).trans (Scanner.advances_equals.of_done equals)
  obtain ⟨producer, place, found, found', right, last, rfl⟩ := Reader.bind_done read
  rcases Reader.optional_done right with ⟨one, rfl, produced⟩ | ⟨rfl, rfl⟩
  · cases last
    rw [List.append_nil]
    exact .inl ⟨left, one, here, rfl, before, produced⟩
  · injection last with _ outcome
    match left, outcome with
    | [], outcome => cases outcome
    | [one], outcome =>
        obtain ⟨path, rfl⟩ := Scanner.map_done outcome
        exact .inr ⟨one, path, rfl⟩
    | _ :: _ :: _, outcome => cases outcome

theorem namedStyle_accounts : (Reader.ofScanner namedStyle).Accounts := by
  intro cursor stop found value read
  injection read with _ outcome
  obtain ⟨name, style, _, _, rfl, _⟩ := namedStyle_done outcome
  trivial

theorem styleBinding_accounts : (Reader.ofScanner styleBinding).Accounts := by
  intro cursor stop found value read
  injection read with _ outcome
  obtain ⟨keyword, tags, rfl⟩ := styleBinding_done outcome
  trivial

/-- What produces the value of an assignment is accounted for, where it stands. -/
theorem producerWith_accounted (advances : statement.Advances 1) (accounts : statement.Accounts)
    {start here : Cursor} (before : start.Advances 1 here) (left : List Target)
    {producer : Producer} (read : producerWith statement here = ⟨found, .done producer stop⟩) :
    (Statement.assignment left producer).Accounted found start stop := by
  rcases Reader.orTry_done read with source | ⟨found₁, found₂, other, rfl⟩
  · injection source with _ outcome
    obtain ⟨source, rfl⟩ := Scanner.map_done outcome
    trivial
  · refine Statement.Accounted.mono (fun _ held _ => List.mem_append_right found₁ held) ?_
    rcases Reader.orTry_done other with level | ⟨found₃, found₄, made, rfl⟩
    · obtain ⟨level, inside, rfl⟩ := Reader.map_done level
      obtain ⟨span, enclosed⟩ := namespaceWith_done advances accounts inside
      exact ⟨here, before, span, enclosed⟩
    · injection made with _ outcome
      obtain ⟨made, rfl⟩ := Scanner.map_done outcome
      trivial

theorem assignmentWith_accounts (advances : statement.Advances 1) (accounts : statement.Accounts) :
    (assignmentWith statement).Accounts := by
  intro cursor stop found value read
  rcases assignmentWith_done read with ⟨left, producer, here, rfl, before, produced⟩ | ⟨_, _, rfl⟩
  · exact producerWith_accounted advances accounts before left produced
  · trivial

theorem statementWith_accounts (advances : statement.Advances 1) (accounts : statement.Accounts) :
    (statementWith statement).Accounts := by
  have level : Reader.Accounts ((fun level => Statement.level level.value) <$>
      namespaceWith statement) := by
    intro cursor stop found value read
    obtain ⟨level, inside, rfl⟩ := Reader.map_done read
    exact (namespaceWith_done advances accounts inside).2
  have fetched := Scanner.accounts importClause
    (f := fun source => .fetched source.value) fun _ _ _ _ => trivial
  have made := Scanner.accounts call (f := fun made => .call made.value) fun _ _ _ _ => trivial
  have mentioned := Scanner.accounts qualifiedName (f := .reference) fun _ _ _ _ => trivial
  exact namedStyle_accounts.orTry <| styleBinding_accounts.orTry <| fetched.orTry <|
    (assignmentWith_accounts advances accounts).orTry <| level.orTry <| made.orTry mentioned

theorem statementWithin_accounts (depth : Nat) :
    Reader.Accounts fun cursor => statementWithin depth cursor := by
  induction depth with
  | zero => exact fun _ _ _ _ read => nomatch read
  | succ depth step => exact statementWith_accounts (advances_statementWithin depth) step

end Accounts

end Parser

namespace Recipe

/-- No text is dropped silently. A text consists of the spans of its statements, of separators and
of stretches that an error reports, and so does the inside of every namespace in it. Where the text
is read strictly, it consists of the spans and of separators alone. -/
theorem parseLenient_accounted (source : String) :
    ∃ stop : Cursor, stop.rest = [] ∧
      Statement.listAccounted (parseLenient source).2 (parseLenient source).1.statements
        (.ofText source) stop ∧
      ∀ recipe, parse source = .ok recipe →
        Statement.listAccounted [] recipe.statements (.ofText source) stop := by
  obtain ⟨items, stop, outcome, ends⟩ := recipeStatements_finishes (.ofText source)
  have lenient : parseLenient source =
      (⟨items⟩, (recipeStatements (.ofText source)).findings) := by
    rw [parseLenient, outcome]
  have accounted := (turns_statementTurns _ false _ _).accounted (advances_statementWithin _)
    (statementWithin_accounts _) outcome
  have whole : Statement.listAccounted (parseLenient source).2 (parseLenient source).1.statements
      (.ofText source) stop := by
    rw [lenient]
    exact accounted
  refine ⟨stop, ?_, whole, fun recipe read => ?_⟩
  · simpa [noMoreStatements, Cursor.atEnd] using ends
  · obtain ⟨rfl, harmless⟩ := parse_ok read
    exact whole.mono fun diagnostic held error => absurd error (harmless diagnostic held)

/-- A text that is read strictly, with one namespace inside another. -/
theorem parseLenient_accounted_nested :
    ∃ recipe stop, parse "a = n[f(); m[g()]]" = .ok recipe ∧ stop.rest = [] ∧
      Statement.listAccounted [] recipe.statements (.ofText "a = n[f(); m[g()]]") stop := by
  have nothing : (parseLenient "a = n[f(); m[g()]]").2 = [] := by decide +kernel
  obtain ⟨recipe, read⟩ : ∃ recipe, parse "a = n[f(); m[g()]]" = .ok recipe :=
    ⟨_, parse_of_nothing _ nothing⟩
  obtain ⟨stop, ends, _, strict⟩ := parseLenient_accounted "a = n[f(); m[g()]]"
  exact ⟨recipe, stop, read, ends, strict recipe read⟩

end Recipe

end RecipeGraph
