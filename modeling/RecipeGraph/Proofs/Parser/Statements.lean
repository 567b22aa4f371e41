/-
# Statements are read as they are written

Seven kinds of statement are tried one after the other. All that come before the right one refuse
where its text begins, and find nothing on the way. Statements nest in namespaces, to a depth that
the length of the text bounds; the induction is the one for calls.

Reading a list of statements only depends on where it stands behind the next gap. So when a
statement has been read, it does not matter how much of the gap behind it has been skipped already.
-/

import RecipeGraph.Proofs.Parser.Parts
import RecipeGraph.Proofs.Parser.Turns

namespace RecipeGraph.Parser

variable {inner : Reader Statement} {limit : Nat} {rest : List Char}

/-! ### The beginnings of statements -/

theorem Leads.refuses_namespaceWith (leads : Leads (· ≠ '[') rest) :
    (namespaceWith inner).Refuses rest := by
  refine Reader.Refuses.located fun offset => ?_
  obtain ⟨found, ⟨left, stop⟩, same, ahead⟩ := leads.leadingName offset
  have noBracket := (Scanner.refuses_exactly ahead).lift
  rw [Reader.bind_apply, Reader.ofScanner, same]
  dsimp only
  rw [Reader.bind_apply, noBracket stop]
  rfl

theorem Leads.refuses_assignmentWith (leads : Leads (fun c => EndsTargets c ∧ c ≠ '=') rest) :
    (assignmentWith inner).Refuses rest := by
  obtain ⟨name, rest, rfl, isName, part, next⟩ := leads
  have written : TargetText ⟨⟨name, default⟩, none⟩ (name.toList ++ []) := .intro isName .missing
  have read := reads_targets (.one written) part (next.mono fun _ held => held.1)
  rw [List.append_nil] at read
  have noMark : Scanner.Refuses (do
      inlineGap
      Scanner.exactly '='
      inlineGap) rest := by
    refine Scanner.refuses_behind_gap next fun rest ahead => ?_
    exact (Scanner.refuses_exactly (ahead.mono fun _ held => held.2)).bind
  exact read.lift.bind_refuses fun _ _ => noMark.lift.bind

theorem refuses_assignmentWith_unnamed (others : Ahead (isNameStart · = false) rest) :
    (assignmentWith inner).Refuses rest :=
  (refuses_identifier others).bind.bind.lift.bind

/-! ### Lists of statements -/

section Lists

variable {statement : Reader Statement} {statements : List (Spanned Statement)} {nested : Bool}
  {text gap : List Char}

/-- What is needed of a reader that reads statements up to a length. -/
def ReadsStatements (statement : Reader Statement) (limit : Nat) : Prop :=
  ∀ value text rest, StatementText value text → text.length ≤ limit → Next EndsStatement rest →
    statement.Reads text rest fun found => value.agrees found = true

/-- A text with a name in front that may be missing begins with the name or with what follows. -/
theorem LeadingName.starts {named : Option (Spanned String)} {lead : List Char}
    (written : LeadingName named lead) (c : Char) (tail : List Char) :
    Starts (fun first => isNameStart first = true ∨ first = c) (lead ++ c :: tail) := by
  cases written with
  | missing => exact .cons (.inr rfl)
  | present isName filling => exact ((isName.starts.mono fun _ => .inl).append _).append _

/-- The characters a statement begins with. -/
def BeginsStatement (c : Char) : Prop :=
  isNameStart c = true ∨ c = '#' ∨ c = '%' ∨ c = '[' ∨ c = '@'

/-- Neither a gap nor a namespace goes on or ends there. -/
theorem BeginsStatement.solid {c : Char} (begins : BeginsStatement c) :
    (isSeparator c = false ∧ c ≠ '/') ∧ c ≠ ']' := by
  rcases begins with name | rfl | rfl | rfl | rfl
  · refine ⟨isNameStart_solid name, ?_⟩
    rintro rfl
    exact absurd name (by decide)
  all_goals decide

theorem StatementText.starts {value : Statement} (written : StatementText value text) :
    Starts BeginsStatement text := by
  have name : ∀ c, isNameStart c = true → BeginsStatement c := fun _ => .inl
  cases written with
  | call written =>
      obtain ⟨isName, _, _, _⟩ := written
      exact (isName.starts.mono name).append _
  | assignment targeted before behind produced =>
      refine (targeted.starts fun target _ here => ?_).append _
      obtain ⟨isName, _⟩ := here
      exact (isName.starts.mono name).append _
  | «alias» targeted before behind written =>
      obtain ⟨isName, _⟩ := targeted
      exact ((isName.starts.mono name).append _).append _
  | namedStyle isName filling written => exact .cons (.inr (.inl rfl))
  | styleBinding isName filling inside => exact .cons (.inr (.inr (.inl rfl)))
  | level written =>
      obtain ⟨named, _, _, _⟩ := written
      refine (named.starts '[' _).mono fun c held => held.elim (name c) ?_
      exact fun same => .inr (.inr (.inr (.inl same)))
  | fetched written =>
      obtain ⟨named, _, _⟩ := written
      refine (named.starts '@' _).mono fun c held => held.elim (name c) ?_
      exact fun same => .inr (.inr (.inr (.inr same)))
  | reference written => exact written.starts.mono name

/-- Behind the gap that follows a statement stands what ends it. -/
theorem Filling.endsStatement (filling : Filling isSeparator gap)
    (next : Next EndsStatement rest) : Next EndsStatement (gap ++ rest) := by
  refine next.behind filling fun c blank => ?_
  simp only [isSeparator, isMultilineBlank, Bool.or_eq_true, beq_iff_eq] at blank
  rcases blank with (inline | rfl) | rfl
  · exact .inl inline
  · exact .inr ⟨by decide, .inl rfl⟩
  · exact .inr ⟨by decide, .inr (.inl rfl)⟩

theorem statementEnd_next (next : Next EndsStatement rest) (offset : Nat) :
    statementEnd ⟨rest, offset⟩ = .done () (skipGapFrom isInlineBlank rest offset) := by
  have ends : endsStatement (skipGapFrom isInlineBlank rest offset) = true := by
    have ahead := next offset
    rw [endsStatement]
    cases left : (skipGapFrom isInlineBlank rest offset).rest with
    | nil => rfl
    | cons c more =>
        rw [left] at ahead
        rcases ahead c rfl with rfl | rfl | rfl
        all_goals rfl
  rw [statementEnd, Cursor.skipGap]
  exact if_pos ends

theorem reads_wholeStatement {good : Statement → Prop} (reads : statement.Reads text rest good)
    (next : Next EndsStatement rest) (offset : Nat) :
    ∃ found, good found.value ∧ wholeStatement statement ⟨text ++ rest, offset⟩ =
      ⟨[], .done found (skipGapFrom isInlineBlank rest (offset + byteLength text))⟩ := by
  obtain ⟨found, held, same⟩ := reads.located offset
  refine ⟨found, held, ?_⟩
  rw [wholeStatement, Reader.bind_apply, same]
  dsimp only
  rw [Reader.bind_apply, Reader.ofScanner, statementEnd_next next]
  rfl

/-- How statements are written between others. -/
abbrev SpannedText (statement : Spanned Statement) : List Char → Prop :=
  StatementText statement.value

/-- A turn that reads a statement, in front of turns that read others. -/
theorem statementTurns_cons {value : Spanned Statement} {values : List (Spanned Statement)}
    {reply : Reply (List (Spanned Statement))} (starts : Starts BeginsStatement text)
    (reads : statement.Reads text rest fun found => value.value.agrees found = true)
    (next : Next EndsStatement rest) (before : Filling isSeparator gap) (bound offset : Nat)
    (later : ∃ found, Statement.listAgrees values found = true ∧
      statementTurns statement nested (bound + 1 + values.length)
        ⟨rest, offset + byteLength (gap ++ text)⟩ = reply.behind found) :
    ∃ found, Statement.listAgrees (value :: values) found = true ∧
      statementTurns statement nested (bound + 1 + (value :: values).length)
        ⟨gap ++ (text ++ rest), offset⟩ = reply.behind found := by
  obtain ⟨value, span⟩ := value
  obtain ⟨⟨found, span'⟩, held, read⟩ :=
    reads_wholeStatement reads next (offset + byteLength gap)
  obtain ⟨others, agree, same⟩ := later
  refine ⟨⟨found, span'⟩ :: others, ?_, ?_⟩
  · rw [Statement.listAgrees, held, agree]
    rfl
  obtain ⟨c, tail, rfl, begins⟩ := starts
  obtain ⟨⟨solid, slash⟩, bracket⟩ := begins.solid
  have start : Cursor.skipGap isSeparator ⟨gap ++ (c :: tail ++ rest), offset⟩ =
      ⟨c :: tail ++ rest, offset + byteLength gap⟩ := by
    rw [Cursor.skipGap, before.skip rfl]
    exact skipGapFrom_solid solid slash
  have more : noMoreStatements nested ⟨c :: tail ++ rest, offset + byteLength gap⟩ = false := by
    have other : (some c == some ']') = false :=
      beq_false_of_ne fun same => bracket (Option.some.inj same)
    rw [noMoreStatements, List.cons_append, List.head?_cons, other, Bool.and_false]
    rfl
  -- What has been skipped behind the statement is the beginning of the next gap.
  have again : (skipGapFrom isInlineBlank rest (offset + byteLength gap +
      byteLength (c :: tail))).skipGap isSeparator =
        Cursor.skipGap isSeparator ⟨rest, offset + byteLength (gap ++ c :: tail)⟩ := by
    rw [byteLength_append, ← Nat.add_assoc]
    exact skipGapFrom_again rest _
  have turns : bound + 1 + values.length = bound + values.length + 1 := by omega
  rw [List.length_cons, ← Nat.add_assoc, statementTurns_done start more read, turns,
    statementTurns_gap again, ← turns, same, Reply.behind_behind]
  rfl

theorem Run.length_le (run : Run SpannedText Breaking statements text) :
    statements.length ≤ text.length := by
  induction run with
  | one here => exact here.starts.length_pos
  | more here parted later step =>
      have := here.starts.length_pos
      simp only [List.length_append, List.length_cons]
      omega

/-- A run of statements is read turn by turn, and what follows is read as it would be alone. -/
theorem Run.reads_statements (run : Run SpannedText Breaking statements text) (nested : Bool)
    (each : ReadsStatements statement limit) (small : text.length ≤ limit)
    (next : Next EndsStatement rest) (before : Filling isSeparator gap) (bound offset : Nat) :
    ∃ found, Statement.listAgrees statements found = true ∧
      statementTurns statement nested (bound + 1 + statements.length)
        ⟨gap ++ (text ++ rest), offset⟩ = (statementTurns statement nested (bound + 1)
          ⟨rest, offset + byteLength (gap ++ text)⟩).behind found := by
  induction run generalizing gap offset with
  | @one value text here =>
      have read := each value.value text rest here small next
      exact statementTurns_cons here.starts read next before bound offset
        ⟨[], rfl, (Reply.behind_nil _).symm⟩
  | @more value values text gap' later here parted run step =>
      rw [List.length_append, List.length_append] at small
      have next' : Next EndsStatement (gap' ++ (later ++ rest)) :=
        Next.behind_breaking parted (.inl rfl) (.inr (.inl rfl))
      have read := each value.value text _ here (by omega) next'
      have others := step (by omega) parted.filling (offset + byteLength (gap ++ text))
      have stop : offset + byteLength (gap ++ text) + byteLength (gap' ++ later) =
          offset + byteLength (gap ++ (text ++ (gap' ++ later))) := by
        simp only [byteLength_append]
        omega
      rw [stop] at others
      simpa only [List.append_assoc] using
        statementTurns_cons here.starts read next' before bound offset others

/-- A list of statements is read if its turns are, the last of which finds no more of them. -/
theorem reads_statementList_of {gap' : List Char} (few : statements.length ≤ text.length)
    (turns : ∀ bound offset, ∃ found, Statement.listAgrees statements found = true ∧
      statementTurns statement nested (bound + 1 + statements.length)
        ⟨text ++ (gap' ++ rest), offset⟩ =
          (statementTurns statement nested (bound + 1)
            ⟨gap' ++ rest, offset + byteLength text⟩).behind found)
    (last : ∀ bound offset, statementTurns statement nested (bound + 1) ⟨gap' ++ rest, offset⟩ =
      ⟨[], .done [] ⟨rest, offset + byteLength gap'⟩⟩) :
    (statementList statement nested).Reads (text ++ gap') rest fun found =>
      Statement.listAgrees statements found = true := by
  intro offset
  obtain ⟨bound, enough⟩ : ∃ bound, (text ++ (gap' ++ rest)).length + 1 =
      bound + 1 + statements.length := by
    refine ⟨(text ++ (gap' ++ rest)).length - statements.length, ?_⟩
    rw [List.length_append]
    omega
  obtain ⟨found, agree, same⟩ := turns bound offset
  refine ⟨found, agree, ?_⟩
  rw [statementList, List.append_assoc, enough, same, last, byteLength_append, ← Nat.add_assoc,
    Reply.behind]
  dsimp only
  rw [List.append_nil]

/-- The turn that comes upon the bracket that closes a namespace. -/
theorem statementTurns_close (filling : Filling isSeparator gap) (bound offset : Nat) :
    statementTurns statement true (bound + 1) ⟨gap ++ ']' :: rest, offset⟩ =
      ⟨[], .done [] ⟨']' :: rest, offset + byteLength gap⟩⟩ := by
  have start : Cursor.skipGap isSeparator ⟨gap ++ ']' :: rest, offset⟩ =
      ⟨']' :: rest, offset + byteLength gap⟩ := by
    rw [Cursor.skipGap, filling.skip rfl]
    exact skipGapFrom_solid (by decide) (by decide)
  exact statementTurns_stop start rfl bound

/-- The statements of a namespace are read up to the bracket that closes it. -/
theorem Body.reads_statementList
    (body : Body SpannedText Breaking (Filling isSeparator) statements text)
    (each : ReadsStatements statement limit) (small : text.length ≤ limit) :
    (statementList statement true).Reads text (']' :: rest) fun found =>
      Statement.listAgrees statements found = true := by
  cases body with
  | empty filling =>
      rw [← List.nil_append text]
      exact reads_statementList_of (Nat.zero_le _)
        (fun _ _ => ⟨[], rfl, (Reply.behind_nil _).symm⟩) (statementTurns_close filling)
  | @filled _ gap text gap' before run behind =>
      have next : Next EndsStatement (gap' ++ ']' :: rest) :=
        behind.endsStatement (.here (by decide) (by decide) (.inr (.inr rfl)))
      simp only [List.length_append] at small
      have few : statements.length ≤ (gap ++ text).length := by
        have := run.length_le
        rw [List.length_append]
        omega
      rw [← List.append_assoc]
      refine reads_statementList_of few (fun bound offset => ?_) (statementTurns_close behind)
      rw [List.append_assoc]
      exact run.reads_statements true each (by omega) next before bound offset

end Lists

/-! ### Namespaces, producers and statements -/

section Statements

variable {level : Namespace} {producer : Producer} {value : Statement} {text : List Char}

/-- A namespace is read if its statements are, its bracket, its arguments and its style. -/
theorem reads_namespaceWith_of {name : Option (Spanned String)}
    {statements : List (Spanned Statement)} {arguments : List Argument} {style : Option StyleBlock}
    {lead body close brackets tail : List Char} (named : LeadingName name lead)
    (read : (statementList inner true).Reads body (close ++ (brackets ++ (tail ++ rest)))
      fun found => Statement.listAgrees statements found = true)
    (closed : (Scanner.closing ']').Reads close (brackets ++ (tail ++ rest)) fun _ => True)
    (passed : trailingArguments.Reads brackets (tail ++ rest)
      fun found => Argument.listAgrees arguments found = true)
    (styled : trailingStyle.Reads tail rest
      fun found => optionsAgree StyleBlock.agrees style found = true) :
    (namespaceWith inner).Reads (lead ++ '[' :: (body ++ (close ++ (brackets ++ tail)))) rest
      fun found => Statement.agrees (.level ⟨name, statements, arguments, style⟩)
        (.level found.value) = true := by
  rw [namespaceWith]
  refine Reader.Reads.located (?_ : Reader.Reads _ _ _ fun found =>
    Statement.agrees (.level ⟨name, statements, arguments, style⟩) (.level found) = true)
  refine (reads_leadingName named (.cons (by decide)) (.cons (by decide))).lift.bind
    fun name' agree₁ => ?_
  refine (Scanner.reads_exactly '[' _).lift.bind fun _ _ => ?_
  rw [← List.append_assoc brackets tail rest] at read closed
  rw [← List.append_assoc close (brackets ++ tail) rest] at read
  refine read.bind fun statements' agree₂ => closed.lift.bind fun _ _ => ?_
  refine passed.lift.bind fun arguments' agree₃ => styled.lift.bind_nil fun style' agree₄ => ?_
  refine Reader.reads_pure ?_
  rw [Statement.agrees, agree₁, agree₂, agree₃, agree₄]
  rfl

theorem reads_namespaceWith (written : NamespaceText StatementText level text)
    (each : ReadsStatements inner limit) (small : text.length ≤ limit + 1)
    (next : Next EndsStatement rest) :
    (namespaceWith inner).Reads text rest fun found =>
      Statement.agrees (.level level) (.level found.value) = true := by
  obtain @⟨name, statements, arguments, style, lead, body, brackets, tail, named, inside, passed,
    styled⟩ := written
  have bound : body.length ≤ limit := by
    simp only [List.length_append, List.length_cons] at small
    omega
  have noStyle : Next (· ≠ '\x7b') rest := next.mono fun _ ends => ends.unopened.2.2.2.1
  have noArguments : Next (· ≠ '(') (tail ++ rest) :=
    styled.next (by decide) (next.mono fun _ ends => ends.unopened.2.2.1)
  have read (behind : List Char) : (statementList inner true).Reads body ([']'] ++ behind)
      fun found => Statement.listAgrees statements found = true :=
    inside.reads_statementList each bound
  have level := reads_namespaceWith_of named (read _) (Scanner.reads_closing ']' _)
    (reads_trailingArguments passed noArguments) (reads_trailingStyle styled noStyle)
  exact level

/-- A text begins with the bracket of a namespace, or with a name and that bracket. -/
def OpensLevel (text : List Char) : Prop :=
  Leads (· = '[') text ∨ Ahead (· = '[') text

/-- Behind the name of a namespace, if it has one, comes its bracket. -/
theorem NamespaceText.opens (written : NamespaceText StatementText level text) (rest : List Char) :
    OpensLevel (text ++ rest) := by
  obtain ⟨named, _, _, _⟩ := written
  rw [List.append_assoc]
  cases named with
  | missing => exact .inr (.cons rfl)
  | @present name gap isName filling =>
      rw [List.append_assoc]
      exact .inl ⟨name.value, _, rfl, isName, filling.ofInline.part (.cons (by decide)),
        Next.behind_inline filling (.here (by decide) (by decide) rfl)⟩

/-- A namespace is no import. -/
theorem OpensLevel.refuses_importClause (opens : OpensLevel rest) : importClause.Refuses rest := by
  cases opens with
  | inl leads =>
      refine (leads.mono ?_).refuses_importClause
      rintro c rfl
      decide
  | inr ahead =>
      refine refuses_importClause_unnamed (ahead.mono ?_)
      rintro c rfl
      decide

/-- A namespace is no assignment. -/
theorem OpensLevel.refuses_assignmentWith (opens : OpensLevel rest) :
    (assignmentWith inner).Refuses rest := by
  cases opens with
  | inl leads =>
      refine (leads.mono ?_).refuses_assignmentWith
      rintro c rfl
      exact ⟨⟨by decide, by decide⟩, by decide⟩
  | inr ahead =>
      refine refuses_assignmentWith_unnamed (ahead.mono ?_)
      rintro c rfl
      decide

/-- Behind the name of a call comes its bracket. -/
theorem CallText.leads {made : Call} (written : CallText ArgumentText made text)
    (rest : List Char) : Leads (· = '(') (text ++ rest) := by
  obtain @⟨name, arguments, style, gap, body, tail, isName, filling, _, _⟩ := written
  rw [List.append_assoc, List.append_assoc]
  exact ⟨name.value, _, rfl, isName, filling.ofInline.part (.cons (by decide)),
    Next.behind_inline filling (.here (by decide) (by decide) rfl)⟩

/-- Behind the first target of an assignment comes its style, a comma or what follows the targets. -/
theorem Run.leads {lefts : List Target} {accept : Char → Prop}
    (run : Run TargetText (Comma isInlineBlank) lefts text)
    (part : Ahead (isNamePart · = false) rest) (next : Next accept rest) (bracket : accept '\x7b')
    (comma : accept ',') : Leads accept (text ++ rest) := by
  cases run with
  | @one left _ here =>
      obtain ⟨isName, styled⟩ := here
      exact ⟨_, _, List.append_assoc _ _ _, isName, styled.apart part, styled.next bracket next⟩
  | @more left lefts text gap later here parted run =>
      obtain ⟨isName, styled⟩ := here
      obtain @⟨before, behind, filling, _⟩ := parted
      have comma' : Next accept (before ++ ',' :: (behind ++ (later ++ rest))) :=
        Next.behind_inline filling (.here (by decide) (by decide) comma)
      have part' : Ahead (isNamePart · = false) (before ++ ',' :: (behind ++ (later ++ rest))) :=
        filling.ofInline.part (.cons (by decide))
      refine ⟨left.name.value, _, ?_, isName, styled.apart part', styled.next bracket comma'⟩
      simp only [List.append_assoc, List.cons_append]

/-- Nothing behind the first name of a path makes it more than a reference. -/
theorem PathText.unopened {path : QualifiedPath} (written : PathText path text)
    (next : Next EndsStatement rest) : Leads Unopened (text ++ rest) :=
  written.leads (next.apart fun _ => EndsStatement.apart)
    ⟨by decide, by decide, by decide, by decide, by decide, by decide⟩
    (next.mono fun _ => EndsStatement.unopened)

/-- Two assignments say the same if their targets and their right-hand sides do. -/
theorem agrees_assignment {lefts others : List Target} {one other : Producer}
    (left : listsAgree Target.agrees lefts others = true)
    (right : Statement.agrees (.assignment [] one) (.assignment [] other) = true) :
    Statement.agrees (.assignment lefts one) (.assignment others other) = true := by
  cases one with
  | call made =>
      cases other with
      | call made' => simpa [left, listsAgree] using right
      | level level => exact right
      | fetched source => exact right
  | level level =>
      cases other with
      | call made' => exact right
      | level level => simpa [left, listsAgree] using right
      | fetched source => exact right
  | fetched source =>
      cases other with
      | call made' => exact right
      | level level => exact right
      | fetched source => simpa [left, listsAgree] using right

/-- What begins like a call and is read as one is what an assignment takes. -/
theorem Leads.reads_producerWith {made : Spanned Call} (leads : Leads (· = '(') (text ++ rest))
    (read : call.Reads text rest fun found => made.value.agrees found.value = true) :
    (producerWith inner).Reads text rest fun found =>
      Statement.agrees (.assignment [] (.call made)) (.assignment [] found) = true := by
  have noImport : importClause.Refuses (text ++ rest) :=
    (leads.mono (by rintro c rfl; decide)).refuses_importClause
  have noLevel : (namespaceWith inner).Refuses (text ++ rest) :=
    (leads.mono (by rintro c rfl; decide)).refuses_namespaceWith
  refine noImport.map.lift.orTry (noLevel.map.orTry (read.map fun found same => ?_).lift)
  simpa [listsAgree] using same

/-- What begins like a namespace and is read as one is what an assignment takes. -/
theorem OpensLevel.reads_producerWith {level : Spanned Namespace} (opens : OpensLevel (text ++ rest))
    (read : (namespaceWith inner).Reads text rest fun found =>
      Statement.agrees (.level level.value) (.level found.value) = true) :
    (producerWith inner).Reads text rest fun found =>
      Statement.agrees (.assignment [] (.level level)) (.assignment [] found) = true := by
  refine opens.refuses_importClause.map.lift.orTry (Reader.Reads.orTry _ ?_)
  refine read.map fun found same => ?_
  simpa [listsAgree] using same

theorem reads_producerWith (written : ProducerText StatementText producer text)
    (each : ReadsStatements inner limit) (small : text.length ≤ limit + 1)
    (next : Next EndsStatement rest) :
    (producerWith inner).Reads text rest fun found =>
      Statement.agrees (.assignment [] producer) (.assignment [] found) = true := by
  cases written with
  | call written =>
      have noStyle : Next (· ≠ '\x7b') rest := next.mono fun _ ends => ends.unopened.2.2.2.1
      exact (written.leads rest).reads_producerWith (reads_call written noStyle)
  | level written =>
      exact (written.opens rest).reads_producerWith (reads_namespaceWith written each small next)
  | fetched written =>
      refine Reader.Reads.orTry _ ((reads_importClause written).map fun found same => ?_).lift
      simpa [listsAgree] using same

/-- A path that ends a statement produces nothing. -/
theorem PathText.refuses_producerWith {path : QualifiedPath} (written : PathText path text)
    (next : Next EndsStatement rest) : (producerWith inner).Refuses (text ++ rest) := by
  have leads := written.unopened next
  have noImport : importClause.Refuses (text ++ rest) :=
    (leads.mono fun _ held => held.1).refuses_importClause
  have noLevel : (namespaceWith inner).Refuses (text ++ rest) :=
    (leads.mono fun _ held => held.2.1).refuses_namespaceWith
  have noCall : call.Refuses (text ++ rest) := (leads.mono fun _ held => held.2.2.1).refuses_callWith
  exact noImport.map.lift.orTry_refuses (noLevel.map.orTry_refuses noCall.map.lift)

theorem ProducerText.starts (written : ProducerText StatementText producer text) :
    Starts BeginsStatement text := by
  cases written with
  | call written => exact (StatementText.call written).starts
  | level written => exact (StatementText.level written).starts
  | fetched written => exact (StatementText.fetched written).starts

theorem ProducerText.solid (written : ProducerText StatementText producer text) (rest : List Char) :
    Solid isInlineBlank (text ++ rest) :=
  Solid.inline ((written.starts.mono fun _ begins => begins.solid.1).append rest).ahead

/-- Behind the targets, and the mark that follows them, the right-hand side is read. -/
theorem reads_assignmentWith_of {lefts : List Target} {left gap gap' right : List Char}
    (targeted : Run TargetText (Comma isInlineBlank) lefts left)
    (before : Filling isInlineBlank gap) (behind : Filling isInlineBlank gap')
    (solid : Solid isInlineBlank (right ++ rest)) {good : Statement → Prop}
    (reads : ∀ found, listsAgree Target.agrees lefts found = true → Reader.Reads (do
      match ← Reader.optional (producerWith inner) with
      | some producer => return Statement.assignment found producer
      | none => Reader.ofScanner (aliasOf found)) right rest good) :
    (assignmentWith inner).Reads (left ++ (gap ++ '=' :: (gap' ++ right))) rest good := by
  have equals : Scanner.Reads (do
      inlineGap
      Scanner.exactly '='
      inlineGap) (gap ++ '=' :: gap') (right ++ rest) fun _ => True :=
    (Scanner.reads_gap rfl before (.cons (by decide))).bind fun _ _ =>
      (Scanner.reads_exactly '=' _).bind fun _ _ => Scanner.reads_gap rfl behind solid
  have shape : gap ++ '=' :: (gap' ++ right) = gap ++ '=' :: gap' ++ right := by
    simp only [List.append_assoc, List.cons_append]
  have part : Ahead (isNamePart · = false) (gap ++ '=' :: gap' ++ right ++ rest) := by
    simp only [List.append_assoc]
    exact before.ofInline.part (.cons (by decide))
  have next : Next EndsTargets (gap ++ '=' :: gap' ++ right ++ rest) := by
    simp only [List.append_assoc]
    exact Next.behind_inline before (.here (by decide) (by decide) ⟨by decide, by decide⟩)
  rw [shape, assignmentWith]
  refine (reads_targets targeted part next).lift.bind fun found agree => ?_
  exact equals.lift.bind fun _ _ => reads found agree

/-- An assignment is read if its right-hand side is. -/
theorem reads_assignment_of {lefts : List Target} {left gap gap' right : List Char}
    (targeted : Run TargetText (Comma isInlineBlank) lefts left)
    (before : Filling isInlineBlank gap) (behind : Filling isInlineBlank gap')
    (solid : Solid isInlineBlank (right ++ rest))
    (read : (producerWith inner).Reads right rest fun found =>
      Statement.agrees (.assignment [] producer) (.assignment [] found) = true) :
    (assignmentWith inner).Reads (left ++ (gap ++ '=' :: (gap' ++ right))) rest fun found =>
      Statement.agrees (.assignment lefts producer) found = true := by
  refine reads_assignmentWith_of targeted before behind solid fun found agree => ?_
  refine read.optional.bind_nil ?_
  rintro _ ⟨producer', rfl, same⟩
  exact Reader.reads_pure (agrees_assignment agree same)

theorem reads_assignment {lefts : List Target} {left gap gap' right : List Char}
    (targeted : Run TargetText (Comma isInlineBlank) lefts left)
    (before : Filling isInlineBlank gap) (behind : Filling isInlineBlank gap')
    (produced : ProducerText StatementText producer right) (each : ReadsStatements inner limit)
    (small : right.length ≤ limit + 1) (next : Next EndsStatement rest) :
    (assignmentWith inner).Reads (left ++ (gap ++ '=' :: (gap' ++ right))) rest fun found =>
      Statement.agrees (.assignment lefts producer) found = true :=
  reads_assignment_of targeted before behind (produced.solid rest)
    (reads_producerWith produced each small next)

theorem reads_alias {left : Target} {path : Spanned QualifiedPath} {text gap gap' right : List Char}
    (targeted : TargetText left text) (before : Filling isInlineBlank gap)
    (behind : Filling isInlineBlank gap') (written : PathText path.value right)
    (next : Next EndsStatement rest) :
    (assignmentWith inner).Reads (text ++ (gap ++ '=' :: (gap' ++ right))) rest fun found =>
      Statement.agrees (.alias left path) found = true := by
  have solid : Solid isInlineBlank (right ++ rest) :=
    Solid.inline ((written.starts.mono fun _ => isNameStart_solid).append rest).ahead
  refine reads_assignmentWith_of (.one targeted) before behind solid fun found agree => ?_
  refine Reader.Reads.bind (written.refuses_producerWith next).optional ?_
  rintro _ rfl
  cases found with
  | nil => cases agree
  | cons one others =>
      cases others with
      | cons other others => simp [listsAgree] at agree
      | nil =>
          have apart := next.apart fun _ => EndsStatement.apart
          refine ((reads_qualifiedName written apart).map fun found same => ?_).lift
          rw [Statement.agrees, Spanned.agrees, same, decide_eq_true rfl, Bool.and_true]
          simpa [listsAgree] using agree

/-- What begins neither with the mark of a declaration nor with that of a binding of styles is read
as another kind of statement. -/
theorem reads_undeclared {good : Statement → Prop}
    (others : Ahead (fun c => c ≠ '#' ∧ c ≠ '%') (text ++ rest))
    (reads : Reader.Reads
      (Reader.orTry (Reader.ofScanner ((fun source => .fetched source.value) <$> importClause)) <|
        Reader.orTry (assignmentWith inner) <|
        Reader.orTry ((fun level => Statement.level level.value) <$> namespaceWith inner) <|
        Reader.orTry (Reader.ofScanner ((fun made => .call made.value) <$> call)) <|
          Reader.ofScanner (Statement.reference <$> qualifiedName)) text rest good) :
    (statementWith inner).Reads text rest good := by
  have noStyle := (refuses_namedStyle (others.mono fun _ held => held.1)).lift
  have noBinding := (refuses_styleBinding (others.mono fun _ held => held.2)).lift
  exact noStyle.orTry (noBinding.orTry reads)

theorem isNameStart_undeclared {c : Char} (start : isNameStart c = true) : c ≠ '#' ∧ c ≠ '%' := by
  constructor
  · rintro rfl
    exact absurd start (by decide)
  · rintro rfl
    exact absurd start (by decide)

/-- A name begins no declaration. -/
theorem Leads.undeclared {accept : Char → Prop} (leads : Leads accept rest) :
    Ahead (fun c => c ≠ '#' ∧ c ≠ '%') rest := by
  obtain ⟨name, rest, rfl, isName, _, _⟩ := leads
  exact (isName.starts.append rest).ahead.mono fun _ => isNameStart_undeclared

/-- What is read as an assignment and is no import is read as a statement. -/
theorem reads_statementWith_of_assignment {lefts : List Target} {left gap gap' right : List Char}
    {good : Statement → Prop} (targeted : Run TargetText (Comma isInlineBlank) lefts left)
    (before : Filling isInlineBlank gap)
    (reads : (assignmentWith inner).Reads (left ++ (gap ++ '=' :: (gap' ++ right))) rest good) :
    (statementWith inner).Reads (left ++ (gap ++ '=' :: (gap' ++ right))) rest good := by
  have part : Ahead (isNamePart · = false) (gap ++ '=' :: (gap' ++ right ++ rest)) :=
    before.ofInline.part (.cons (by decide))
  have next : Next (· ≠ '@') (gap ++ '=' :: (gap' ++ right ++ rest)) :=
    Next.behind_inline before (.here (by decide) (by decide) (by decide))
  have shape : left ++ (gap ++ '=' :: (gap' ++ right ++ rest)) =
      left ++ (gap ++ '=' :: (gap' ++ right)) ++ rest := by
    simp only [List.append_assoc, List.cons_append]
  have leads := targeted.leads part next (by decide) (by decide)
  rw [shape] at leads
  exact reads_undeclared leads.undeclared
    (leads.refuses_importClause.map.lift.orTry (Reader.Reads.orTry _ reads))

/-- An import begins with a name or with its mark. -/
theorem ImportText.undeclared {source : Import} (written : ImportText source text)
    (rest : List Char) : Ahead (fun c => c ≠ '#' ∧ c ≠ '%') (text ++ rest) := by
  obtain ⟨named, _, _⟩ := written
  refine ((named.starts '@' _).append rest).ahead.mono fun c held =>
    held.elim isNameStart_undeclared ?_
  rintro rfl
  exact ⟨by decide, by decide⟩

/-- What begins like a call and is read as one is read as a statement. -/
theorem Leads.reads_statementWith {made : Call} (leads : Leads (· = '(') (text ++ rest))
    (read : call.Reads text rest fun found => made.agrees found.value = true) :
    (statementWith inner).Reads text rest fun found =>
      Statement.agrees (.call made) found = true := by
  have noImport : importClause.Refuses (text ++ rest) :=
    (leads.mono (by rintro c rfl; decide)).refuses_importClause
  have noAssignment : (assignmentWith inner).Refuses (text ++ rest) :=
    (leads.mono (by rintro c rfl; exact ⟨⟨by decide, by decide⟩, by decide⟩)).refuses_assignmentWith
  have noLevel : (namespaceWith inner).Refuses (text ++ rest) :=
    (leads.mono (by rintro c rfl; decide)).refuses_namespaceWith
  refine reads_undeclared leads.undeclared ?_
  refine noImport.map.lift.orTry (noAssignment.orTry (noLevel.map.orTry ?_))
  exact Reader.Reads.orTry _ (read.map fun found same => same).lift

/-- What begins like a namespace and is read as one is read as a statement. -/
theorem OpensLevel.reads_statementWith (opens : OpensLevel (text ++ rest))
    (read : (namespaceWith inner).Reads text rest fun found =>
      Statement.agrees (.level level) (.level found.value) = true) :
    (statementWith inner).Reads text rest fun found =>
      Statement.agrees (.level level) found = true := by
  have undeclared : Ahead (fun c => c ≠ '#' ∧ c ≠ '%') (text ++ rest) := by
    cases opens with
    | inl leads => exact leads.undeclared
    | inr ahead =>
        refine ahead.mono ?_
        rintro c rfl
        decide
  refine reads_undeclared undeclared (opens.refuses_importClause.map.lift.orTry ?_)
  refine opens.refuses_assignmentWith.orTry (Reader.Reads.orTry _ ?_)
  exact read.map fun found same => same

theorem reads_statementWith (written : StatementText value text)
    (each : ReadsStatements inner limit) (small : text.length ≤ limit + 1)
    (next : Next EndsStatement rest) :
    (statementWith inner).Reads text rest fun found => value.agrees found = true := by
  cases written with
  | call written =>
      refine (written.leads rest).reads_statementWith (reads_call written ?_)
      exact next.mono fun _ ends => ends.unopened.2.2.2.1
  | assignment targeted before behind produced =>
      simp only [List.length_append, List.length_cons] at small
      exact reads_statementWith_of_assignment targeted before
        (reads_assignment targeted before behind produced each (by omega) next)
  | «alias» targeted before behind written =>
      exact reads_statementWith_of_assignment (.one targeted) before
        (reads_alias targeted before behind written next)
  | namedStyle isName filling written =>
      exact Reader.Reads.orTry _ (reads_namedStyle isName filling written).lift
  | styleBinding isName filling inside =>
      exact (refuses_namedStyle (.cons (by decide))).lift.orTry
        (Reader.Reads.orTry _ (reads_styleBinding isName filling inside).lift)
  | level written =>
      exact (written.opens rest).reads_statementWith (reads_namespaceWith written each small next)
  | fetched written =>
      refine reads_undeclared (written.undeclared rest) (Reader.Reads.orTry _ ?_)
      exact ((reads_importClause written).map fun found same => same).lift
  | @reference path text written =>
      have leads := written.unopened next
      have noImport : importClause.Refuses (text ++ rest) :=
        (leads.mono fun _ held => held.1).refuses_importClause
      have noAssignment : (assignmentWith inner).Refuses (text ++ rest) :=
        (leads.mono fun _ held => ⟨⟨held.2.2.2.1, held.2.2.2.2.1⟩, held.2.2.2.2.2⟩).refuses_assignmentWith
      have noLevel : (namespaceWith inner).Refuses (text ++ rest) :=
        (leads.mono fun _ held => held.2.1).refuses_namespaceWith
      have noCall : call.Refuses (text ++ rest) :=
        (leads.mono fun _ held => held.2.2.1).refuses_callWith
      refine reads_undeclared leads.undeclared ?_
      refine noImport.map.lift.orTry (noAssignment.orTry (noLevel.map.orTry (noCall.map.lift.orTry ?_)))
      have apart := next.apart fun _ => EndsStatement.apart
      refine ((reads_qualifiedName written apart).map fun found same => ?_).lift
      rw [Statement.agrees, Spanned.agrees, same, decide_eq_true rfl]

/-- The reader for statements of a depth reads every statement that is no longer. -/
theorem readsStatements_within (depth : Nat) :
    ReadsStatements (fun cursor => statementWithin depth cursor) depth := by
  induction depth with
  | zero =>
      intro value text rest written small
      exact absurd written.starts.length_pos (by omega)
  | succ depth step =>
      intro value text rest written small next
      exact reads_statementWith written step small next

end Statements

end RecipeGraph.Parser
