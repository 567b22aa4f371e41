/-
# Brackets that are not closed

A text from whose end closing brackets are missing is read like the whole one. Where a construct is
cut inside its brackets, all that would follow them is missing as well, and is read as absent; where
it is cut behind them, its brackets are closed. For calls and for statements this is the induction
by which they are read when they are whole, now on the length of what is left of them.
-/

import RecipeGraph.Proofs.Parser.Cut
import RecipeGraph.Proofs.Parser.Findings
import RecipeGraph.Proofs.Parser.Statements

namespace RecipeGraph

namespace Parser

/-! ### Styles -/

section Styles

variable {α β : Type} {item : Scanner β} {writes : α → List Char → Prop} {agrees : α → β → Prop}
  {values : List α} {style : StyleBlock} {kept text : List Char}

/-- The items in curly brackets are read to the end of the text if it is cut off behind the last one
or in the gap behind it. -/
theorem Body.reads_cut_items (body : Body writes Parting (Filling isSeparator) values text)
    (each : ReadsItems item writes agrees) (firm : ∀ value text, writes value text → Firm text)
    (ends : item.Refuses []) (cut : Cut kept text) :
    (separatedItems item).Reads kept [] (List.Forall₂ agrees values) := by
  cases body with
  | empty filling =>
      have stop := (reads_cut_gap rfl filling cut).bind_nil fun _ _ => ends.stopTurn
      exact (Scanner.ReadsTurns.stopOf agrees stop).repeated
  | @filled _ gap text gap' before run behind =>
      rw [← List.append_assoc] at cut
      obtain ⟨left, rfl, later⟩ := ((run.firm firm).behind gap).cut_append cut
      have nothing : Apart [] := nofun
      have apart : Apart (left ++ []) := (behind.apart nothing).cut later.before_nil
      rw [List.append_assoc]
      exact (run.readsTurns_items each (reads_cut_gap rfl behind later) apart ends before).repeated

theorem reads_cut_styleBlock (written : StyleText style text) (cut : Cut kept text) :
    styleBlock.Reads kept [] fun found => style.agrees found = true := by
  have whole : styleBlock.Reads text [] fun found => style.agrees found = true :=
    reads_styleBlock written
  obtain @⟨items, body, tags, entries, inside⟩ := written
  obtain ⟨left, rfl, later⟩ := cut.behind_first (by decide)
  rcases later.closed with rfl | inner
  · exact whole
  · have read : (separatedItems styleItem).Reads left ([] ++ [])
        (List.Forall₂ StyleItem.Agrees items) :=
      inside.reads_cut_items readsItems_style (fun _ _ written => written.firm)
        (refuses_styleItem nofun) inner
    have block := reads_styleBlock_of tags entries read (Scanner.reads_closing_end '\x7d')
    rwa [List.append_nil] at block

theorem StyleText.starts (written : StyleText style text) : Starts (· = '\x7b') text := by
  obtain ⟨_, _, _⟩ := written
  exact .cons rfl

theorem not_closes_of_eq_open {c : Char} (same : c = '\x7b') : ¬ Closes c := by
  rw [same]
  decide

/-- A style of which only brackets and blanks would be missing is missing altogether. -/
theorem StyleTail.missing_of_closes {style : Option StyleBlock} (styled : StyleTail style text)
    (closes : ∀ c ∈ text, Closes c) : style = none ∧ text = [] := by
  cases styled with
  | missing => exact ⟨rfl, rfl⟩
  | present filling written =>
      obtain ⟨_, _, _⟩ := written
      exact absurd (closes '\x7b' (by simp)) (by decide)

theorem reads_cut_trailingStyle {style : Option StyleBlock} (written : StyleTail style text)
    (cut : Cut kept text) :
    trailingStyle.Reads kept [] fun found =>
      optionsAgree StyleBlock.agrees style found = true := by
  cases written with
  | missing =>
      rw [cut.of_nil]
      exact reads_trailingStyle .missing .nil
  | @present style gap text filling written =>
      have starts := written.starts
      obtain ⟨left, rfl, later⟩ := cut.behind_start starts fun _ => not_closes_of_eq_open
      have bracket := later.starts starts fun _ => not_closes_of_eq_open
      have solid : Solid isInlineBlank (left ++ []) := by
        refine (bracket.append []).ahead.mono ?_
        rintro c rfl
        decide
      have read : Scanner.Reads (do inlineGap; styleBlock) (gap ++ left) []
          fun found => style.agrees found = true :=
        (Scanner.reads_gap rfl filling solid).bind fun _ _ => reads_cut_styleBlock written later
      refine read.optional.mono ?_
      rintro _ ⟨found, rfl, same⟩
      exact same

end Styles

/-! ### Calls -/

section Calls

variable {argument inner : Scanner Argument} {limit : Nat} {arguments : List Argument}
  {value : Argument} {made : Call} {kept text gap gap' : List Char}

/-- What is needed of a scanner that reads arguments up to a length even if they are cut off. -/
def ReadsCutArguments (argument : Scanner Argument) (limit : Nat) : Prop :=
  ∀ value text kept, ArgumentText value text → Cut kept text → kept.length ≤ limit →
    argument.Reads kept [] fun found => value.agrees found = true

/-- The last argument, if it is cut off or the gap behind it is. -/
theorem ReadsCutArguments.lastTurn (cuts : ReadsCutArguments argument limit)
    (each : ReadsArguments argument limit) (before : Filling isMultilineBlank gap)
    (written : ArgumentText value text) (behind : Filling isMultilineBlank gap')
    (cut : Cut kept (text ++ gap')) (small : kept.length ≤ limit) :
    (argumentTurn argument).Reads (gap ++ kept) [] fun found =>
      ∃ item, found = .last item ∧ value.agrees item = true := by
  have noComma : (Scanner.exactly ',').Refuses [] := Scanner.refuses_exactly nofun
  rcases cut.append with ⟨left, rfl, later⟩ | ⟨inside, _⟩
  · have next : Next EndsArgument (left ++ []) :=
      (behind.endsArgument Next.nil).cut later.before_nil
    have short : text.length ≤ limit := by
      rw [List.length_append] at small
      omega
    exact reads_lastTurn_of before (written.solid _ _) (each.reads value text _ written short next)
      (reads_cut_gap rfl behind later) noComma
  · have solid : Solid isMultilineBlank (kept ++ [] ++ []) :=
      Ahead.cut (written.solid [] []) inside.before_nil.before_nil
    have read := cuts value text kept written inside small
    have turn := reads_lastTurn_of before solid read (reads_nothing_gap _) noComma
    rwa [List.append_nil] at turn

/-- The arguments of a run are read to the end of the text if the last one is cut off. -/
theorem Run.readsTurns_cut_arguments
    (run : Run ArgumentText (Comma isMultilineBlank) arguments text)
    (cuts : ReadsCutArguments argument limit) (each : ReadsArguments argument limit)
    (behind : Filling isMultilineBlank gap') (before : Filling isMultilineBlank gap)
    (cut : Cut kept (text ++ gap')) (small : kept.length ≤ limit) :
    Scanner.ReadsTurns (argumentTurn argument) (gap ++ kept) []
      (List.Forall₂ (fun value item => value.agrees item = true) arguments) := by
  induction run generalizing gap kept with
  | one here =>
      refine (Scanner.ReadsTurns.last (cuts.lastTurn each before here behind cut small)).mono ?_
      rintro _ ⟨item, rfl, same⟩
      exact .cons same .nil
  | @more value values text comma rest here parted run step =>
      obtain @⟨gap₁, gap₂, before', behind'⟩ := parted
      have shape : text ++ (gap₁ ++ ',' :: gap₂ ++ rest) ++ gap' =
          text ++ gap₁ ++ ',' :: (gap₂ ++ (rest ++ gap')) := by
        simp only [List.append_assoc, List.cons_append]
      rw [shape] at cut
      obtain ⟨left, rfl, later⟩ := cut.behind_char (by decide)
      have starts := (run.starts fun _ _ => ArgumentText.starts).append gap'
      obtain ⟨left, rfl, last⟩ := later.behind_start starts fun _ => not_closes_of_isNameStart
      simp only [List.length_append, List.length_cons] at small
      have turn : (argumentTurn argument).Reads (gap ++ (text ++ (gap₁ ++ [','])))
          (gap₂ ++ left ++ []) fun found => ∃ item, found = .more item ∧ value.agrees item = true :=
        each.moreTurn before here (by omega) before'
      have nonempty : 0 < (gap ++ (text ++ (gap₁ ++ [',']))).length := by
        simp only [List.length_append, List.length_singleton]
        omega
      have turns := Scanner.ReadsTurns.moreOf nonempty turn (step behind' last (by omega))
      simpa only [List.append_assoc, List.cons_append, List.nil_append] using turns

/-- A list of arguments is read to the end of the text if it is cut off behind its first bracket. -/
theorem Body.reads_cut_argumentList
    (body : Body ArgumentText (Comma isMultilineBlank) (Filling isMultilineBlank) arguments text)
    (cuts : ReadsCutArguments argument limit) (each : ReadsArguments argument limit)
    (cut : Cut kept text) (small : kept.length ≤ limit) :
    (argumentList argument).Reads ('(' :: kept) []
      fun found => Argument.listAgrees arguments found = true := by
  have turns : Scanner.ReadsTurns (argumentTurn argument) kept ([] ++ [])
      (List.Forall₂ (fun value item => value.agrees item = true) arguments) := by
    cases body with
    | empty filling =>
        exact .stopOf _ (reads_stopTurn_of (reads_cut_gap rfl filling cut) (each.refuses _ nofun))
    | @filled _ gap text gap' before run behind =>
        have starts := (run.starts fun _ _ => ArgumentText.starts).append gap'
        obtain ⟨left, rfl, last⟩ := cut.behind_start starts fun _ => not_closes_of_isNameStart
        rw [List.length_append] at small
        exact run.readsTurns_cut_arguments cuts each behind before last (by omega)
  have list := reads_argumentList_of turns nofun (Scanner.reads_closing_end ')')
  rwa [List.append_nil] at list

/-- A call is read to the end of the text if it is cut off. -/
theorem reads_cut_callWith (written : CallText ArgumentText made text)
    (cuts : ReadsCutArguments inner limit) (each : ReadsArguments inner limit) (cut : Cut kept text)
    (small : kept.length ≤ limit + 1) :
    (callWith inner).Reads kept [] fun found => made.agrees found.value = true := by
  obtain @⟨name, arguments, style, gap, body, tail, isName, filling, inside, styled⟩ := written
  rw [← List.append_assoc] at cut
  obtain ⟨left, rfl, later⟩ := cut.behind_char (by decide)
  simp only [List.length_append, List.length_cons] at small
  rw [List.append_assoc]
  rcases later.split with ⟨tail', rfl, last⟩ | ⟨inner, closes⟩
  · have list : '(' :: (body ++ ')' :: tail') = '(' :: (body ++ [')']) ++ tail' := by simp
    simp only [List.length_append, List.length_cons] at small
    rw [list]
    exact reads_callWith_of isName filling (.cons rfl)
      (inside.reads_argumentList each (by omega)) (reads_cut_trailingStyle styled last)
  · obtain ⟨rfl, rfl⟩ := styled.missing_of_closes closes
    have read := inside.reads_cut_argumentList cuts each inner (by omega)
    have bracket : Ahead (· = '(') ('(' :: left ++ ([] ++ [])) := Ahead.cons rfl
    have made := reads_callWith_of isName filling bracket read
      (reads_trailingStyle .missing Next.nil)
    rwa [List.append_nil] at made

/-- The scanner for arguments of a depth reads every argument of which no more is left. -/
theorem readsCutArguments_within (depth : Nat) :
    ReadsCutArguments (fun cursor => argumentWithin depth cursor) depth := by
  induction depth with
  | zero =>
      intro value text kept written cut small
      have left := cut.starts written.starts fun _ => not_closes_of_isNameStart
      exact absurd left.length_pos (by omega)
  | succ depth step =>
      intro value text kept written cut small
      cases written with
      | call written =>
          have read := reads_cut_callWith written step (readsArguments_within depth) cut small
          exact Scanner.Reads.orTry _ (read.map fun _ same => same)
      | reference written =>
          obtain rfl := written.firm.cut cut
          exact (readsArguments_within _).reads _ kept [] (.reference written) small Next.nil

theorem readsCutArguments (limit : Nat) : ReadsCutArguments Parser.argument limit := by
  intro value text kept written cut _ offset
  refine readsCutArguments_within _ value text kept written cut ?_ offset
  simp

theorem reads_cut_call (written : CallText ArgumentText made text) (cut : Cut kept text) :
    call.Reads kept [] fun found => made.agrees found.value = true :=
  reads_cut_callWith written (readsCutArguments kept.length) (readsArguments kept.length) cut
    (Nat.le_succ _)

end Calls

/-! ### The parts of statements -/

section Parts

variable {arguments : List Argument} {source : Import} {name : Spanned String}
  {style : StyleBlock} {tags : List (Spanned QualifiedPath)} {kept text gap : List Char}

/-- Arguments of which only brackets and blanks would be missing are missing altogether. -/
theorem ArgumentsTail.missing_of_closes (passed : ArgumentsTail arguments text)
    (closes : ∀ c ∈ text, Closes c) : arguments = [] ∧ text = [] := by
  cases passed with
  | missing => exact ⟨rfl, rfl⟩
  | present filling inside => exact absurd (closes '(' (by simp)) (by decide)

theorem reads_cut_trailingArguments (written : ArgumentsTail arguments text)
    (cut : Cut kept text) :
    trailingArguments.Reads kept [] fun found => Argument.listAgrees arguments found = true := by
  have whole : trailingArguments.Reads text [] fun found =>
      Argument.listAgrees arguments found = true := reads_trailingArguments written Next.nil
  cases written with
  | missing => rwa [cut.of_nil]
  | present filling inside =>
      obtain ⟨left, rfl, later⟩ := cut.behind_char (by decide)
      rcases later.closed with rfl | inner
      · exact whole
      · have list := inside.reads_cut_argumentList (readsCutArguments left.length)
          (readsArguments left.length) inner le_rfl
        have read : Scanner.Reads (do inlineGap; argumentList argument) _ [] fun found =>
            Argument.listAgrees arguments found = true :=
          (Scanner.reads_gap rfl filling (.cons (by decide))).bind fun _ _ => list
        rw [trailingArguments]
        refine read.optional.bind_pure ?_
        rintro _ ⟨found, rfl, same⟩
        exact same

/-- A declaration of a style is read to the end of the text if it is cut off. -/
theorem reads_cut_namedStyle (isName : IsName name.value) (filling : Filling isInlineBlank gap)
    (written : StyleText style text) (cut : Cut kept ('#' :: (name.value.toList ++ (gap ++ text)))) :
    namedStyle.Reads kept [] fun found =>
      Statement.agrees (.namedStyle name style) found = true := by
  have shape : '#' :: (name.value.toList ++ (gap ++ text)) =
      '#' :: (name.value.toList ++ gap) ++ text := by simp
  rw [shape] at cut
  obtain ⟨left, rfl, last⟩ := cut.behind_start written.starts fun _ => not_closes_of_eq_open
  have bracket := (last.starts written.starts fun _ => not_closes_of_eq_open).append []
  rw [List.cons_append, List.append_assoc]
  exact reads_namedStyle_of isName filling bracket.ahead (reads_cut_styleBlock written last)

/-- So is a binding of styles. -/
theorem reads_cut_styleBinding (isName : IsName name.value) (filling : Filling isInlineBlank gap)
    (inside : Body TagText Parting (Filling isSeparator) tags text)
    (cut : Cut kept ('%' :: (name.value.toList ++ (gap ++ '\x7b' :: (text ++ ['\x7d']))))) :
    styleBinding.Reads kept [] fun found =>
      Statement.agrees (.styleBinding name tags) found = true := by
  have shape : '%' :: (name.value.toList ++ (gap ++ '\x7b' :: (text ++ ['\x7d']))) =
      '%' :: (name.value.toList ++ gap) ++ '\x7b' :: (text ++ ['\x7d']) := by simp
  rw [shape] at cut
  obtain ⟨left, rfl, later⟩ := cut.behind_char (by decide)
  rw [List.cons_append, List.append_assoc]
  rcases later.closed with rfl | unclosed
  · exact reads_styleBinding isName filling inside
  · have read : (separatedItems tagReference).Reads left ([] ++ [])
        (List.Forall₂ (Spanned.agrees · · = true) tags) :=
      inside.reads_cut_items readsItems_tags (fun _ _ tag => tag.firm) (refuses_tagReference nofun)
        unclosed
    have binding := reads_styleBinding_of isName filling read (Scanner.reads_closing_end '\x7d')
    rwa [List.append_nil] at binding

theorem ImportText.firm (written : ImportText source text) : Firm text := by
  obtain ⟨_, _, location⟩ := written
  exact ((location.firm.behind _).behind ['@']).behind _

end Parts

/-! ### Lists of statements -/

section Lists

variable {statement : Reader Statement} {limit : Nat} {statements : List (Spanned Statement)}
  {nested : Bool} {kept text gap : List Char}

/-- What is needed of a reader that reads statements up to a length even if they are cut off. -/
def ReadsCutStatements (statement : Reader Statement) (limit : Nat) : Prop :=
  ∀ value text kept, StatementText value text → Cut kept text → kept.length ≤ limit →
    statement.Reads kept [] fun found => value.agrees found = true

theorem BeginsStatement.not_closes {c : Char} (begins : BeginsStatement c) : ¬ Closes c := by
  rcases begins with name | rfl | rfl | rfl | rfl
  · exact not_closes_of_isNameStart name
  all_goals decide

/-- A run that is cut off is longer than it has statements. -/
theorem Run.length_le_cut (run : Run SpannedText Breaking statements text) (cut : Cut kept text) :
    statements.length ≤ kept.length := by
  induction run generalizing kept with
  | one here => exact (cut.starts here.starts fun _ => BeginsStatement.not_closes).length_pos
  | more here parted later step =>
      have first := here.starts.length_pos
      rw [← List.append_assoc] at cut
      obtain ⟨left, rfl, last⟩ := cut.behind_start (later.starts fun _ _ => StatementText.starts)
        fun _ => BeginsStatement.not_closes
      have others := step last
      simp only [List.length_append, List.length_cons]
      omega

/-- The statements of a run are read turn by turn if the last one is cut off. -/
theorem Run.reads_cut_statements (run : Run SpannedText Breaking statements text) (nested : Bool)
    (cuts : ReadsCutStatements statement limit) (each : ReadsStatements statement limit)
    (cut : Cut kept text) (small : kept.length ≤ limit) (before : Filling isSeparator gap)
    (bound offset : Nat) :
    ∃ found, Statement.listAgrees statements found = true ∧
      statementTurns statement nested (bound + 1 + statements.length) ⟨gap ++ kept, offset⟩ =
        (statementTurns statement nested (bound + 1)
          ⟨[], offset + byteLength (gap ++ kept)⟩).behind found := by
  induction run generalizing gap kept offset with
  | @one value text here =>
      have starts := cut.starts here.starts fun _ => BeginsStatement.not_closes
      have turn : ∃ found, Statement.listAgrees [value] found = true ∧
          statementTurns statement nested (bound + 1 + 1) ⟨gap ++ (kept ++ []), offset⟩ =
            (statementTurns statement nested (bound + 1)
              ⟨[], offset + byteLength (gap ++ kept)⟩).behind found :=
        statementTurns_cons starts (cuts value.value text kept here cut small) Next.nil before
          bound offset ⟨[], rfl, (Reply.behind_nil _).symm⟩
      rwa [List.append_nil] at turn
  | @more value values text gap' later here parted run step =>
      rw [← List.append_assoc] at cut
      obtain ⟨left, rfl, last⟩ := cut.behind_start (run.starts fun _ _ => StatementText.starts)
        fun _ => BeginsStatement.not_closes
      simp only [List.length_append] at small
      have next : Next EndsStatement (gap' ++ left) :=
        Next.behind_breaking parted (.inl rfl) (.inr (.inl rfl))
      have read := each value.value text _ here (by omega) next
      have others := step last (by omega) parted.filling (offset + byteLength (gap ++ text))
      have stop : offset + byteLength (gap ++ text) + byteLength (gap' ++ left) =
          offset + byteLength (gap ++ (text ++ gap' ++ left)) := by
        simp only [byteLength_append]
        omega
      rw [stop] at others
      rw [List.append_assoc] at others ⊢
      exact statementTurns_cons here.starts read next before bound offset others

/-- The turn that comes upon the end of the text. -/
theorem statementTurns_end (filling : Filling isSeparator gap) (cut : Cut kept gap)
    (bound offset : Nat) :
    statementTurns statement nested (bound + 1) ⟨kept ++ [], offset⟩ =
      ⟨[], .done [] ⟨[], offset + byteLength kept⟩⟩ := by
  have start : Cursor.skipGap isSeparator ⟨kept ++ [], offset⟩ =
      ⟨[], offset + byteLength kept⟩ := by
    rw [Cursor.skipGap, List.append_nil, filling.skip_cut rfl cut]
  exact statementTurns_stop start rfl bound

/-- A list of statements is read to the end of the text if it is cut off. -/
theorem Body.reads_cut_statementList
    (body : Body SpannedText Breaking (Filling isSeparator) statements text) (nested : Bool)
    (cuts : ReadsCutStatements statement limit) (each : ReadsStatements statement limit)
    (cut : Cut kept text) (small : kept.length ≤ limit) :
    (statementList statement nested).Reads kept [] fun found =>
      Statement.listAgrees statements found = true := by
  cases body with
  | empty filling =>
      rw [← List.nil_append kept]
      exact reads_statementList_of (Nat.zero_le _)
        (fun _ _ => ⟨[], rfl, (Reply.behind_nil _).symm⟩) (statementTurns_end filling cut)
  | @filled _ gap text gap' before run behind =>
      rw [← List.append_assoc] at cut
      rcases cut.append with ⟨left, rfl, later⟩ | ⟨inner, _⟩
      · have next : Next EndsStatement (left ++ []) :=
          (behind.endsStatement Next.nil).cut later.before_nil
        simp only [List.length_append] at small
        have few : statements.length ≤ (gap ++ text).length := by
          have := run.length_le
          rw [List.length_append]
          omega
        refine reads_statementList_of few (fun bound offset => ?_) (statementTurns_end behind later)
        rw [List.append_assoc]
        exact run.reads_statements nested each (by omega) next before bound offset
      · obtain ⟨left, rfl, last⟩ := inner.behind_start (run.starts fun _ _ => StatementText.starts)
          fun _ => BeginsStatement.not_closes
        rw [List.length_append] at small
        have few : statements.length ≤ (gap ++ left).length := by
          have := run.length_le_cut last
          rw [List.length_append]
          omega
        rw [← List.append_nil (gap ++ left)]
        refine reads_statementList_of few (fun bound offset => ?_)
          (statementTurns_end .nil (.refl []))
        rw [List.append_nil, List.append_nil]
        exact run.reads_cut_statements nested cuts each last (by omega) before bound offset

end Lists

/-! ### Statements -/

section Statements

variable {inner : Reader Statement} {limit : Nat} {level : Namespace} {producer : Producer}
  {value : Statement} {kept text : List Char}

/-- A namespace is read to the end of the text if it is cut off. -/
theorem reads_cut_namespaceWith (written : NamespaceText StatementText level text)
    (cuts : ReadsCutStatements inner limit) (each : ReadsStatements inner limit)
    (cut : Cut kept text) (small : kept.length ≤ limit + 1) :
    (namespaceWith inner).Reads kept [] fun found =>
      Statement.agrees (.level level) (.level found.value) = true := by
  obtain @⟨name, statements, arguments, style, lead, body, brackets, tail, named, inside, passed,
    styled⟩ := written
  obtain ⟨left, rfl, later⟩ := cut.behind_char (by decide)
  simp only [List.length_append, List.length_cons] at small
  rcases later.split with ⟨behind, rfl, last⟩ | ⟨unclosed, closes⟩
  · simp only [List.length_append, List.length_cons] at small
    have bound : body.length ≤ limit := by omega
    have read (rest : List Char) : (statementList inner true).Reads body ([']'] ++ rest)
        fun found => Statement.listAgrees statements found = true :=
      inside.reads_statementList each bound
    rcases last.append with ⟨left, rfl, unclosed⟩ | ⟨unclosed, closes⟩
    · have noArguments : Next (· ≠ '(') (left ++ []) :=
        (styled.next (by decide) Next.nil).cut unclosed.before_nil
      have level := reads_namespaceWith_of named (read _) (Scanner.reads_closing ']' _)
        (reads_trailingArguments passed noArguments) (reads_cut_trailingStyle styled unclosed)
      exact level
    · obtain ⟨rfl, rfl⟩ := styled.missing_of_closes closes
      have level := reads_namespaceWith_of named (read _) (Scanner.reads_closing ']' _)
        (reads_cut_trailingArguments passed unclosed) (reads_trailingStyle .missing Next.nil)
      rwa [List.append_nil] at level
  · obtain ⟨noArguments, noStyle⟩ := List.forall_mem_append.1 closes
    obtain ⟨rfl, rfl⟩ := passed.missing_of_closes noArguments
    obtain ⟨rfl, rfl⟩ := styled.missing_of_closes noStyle
    have read : (statementList inner true).Reads left ([] ++ ([] ++ ([] ++ []))) fun found =>
        Statement.listAgrees statements found = true :=
      inside.reads_cut_statementList true cuts each unclosed (by omega)
    have level := reads_namespaceWith_of named read (Scanner.reads_closing_end ']')
      (reads_trailingArguments .missing Next.nil) (reads_trailingStyle .missing Next.nil)
    simpa only [List.append_nil] using level

theorem OpensLevel.cut (opens : OpensLevel text) (cut : Cut kept text) : OpensLevel kept :=
  opens.imp (Leads.cut · cut) (Ahead.cut · cut)

/-- Of what stands on the right of an assignment, the beginning is read. -/
theorem reads_cut_producerWith (written : ProducerText StatementText producer text)
    (cuts : ReadsCutStatements inner limit) (each : ReadsStatements inner limit)
    (cut : Cut kept text) (small : kept.length ≤ limit + 1) :
    (producerWith inner).Reads kept [] fun found =>
      Statement.agrees (.assignment [] producer) (.assignment [] found) = true := by
  cases written with
  | call written =>
      exact ((written.leads []).cut cut.before_nil).reads_producerWith (reads_cut_call written cut)
  | level written =>
      exact ((written.opens []).cut cut.before_nil).reads_producerWith
        (reads_cut_namespaceWith written cuts each cut small)
  | fetched written =>
      obtain rfl := written.firm.cut cut
      exact reads_producerWith (.fetched written) each small Next.nil

/-- A statement is read to the end of the text if it is cut off. -/
theorem reads_cut_statementWith (written : StatementText value text)
    (cuts : ReadsCutStatements inner limit) (each : ReadsStatements inner limit)
    (cut : Cut kept text) (small : kept.length ≤ limit + 1) :
    (statementWith inner).Reads kept [] fun found => value.agrees found = true := by
  -- Only what ends in a bracket can be cut off.
  have whole (firm : Firm text) :
      (statementWith inner).Reads kept [] fun found => value.agrees found = true := by
    obtain rfl := firm.cut cut
    exact reads_statementWith written each small Next.nil
  cases written with
  | call written =>
      exact ((written.leads []).cut cut.before_nil).reads_statementWith (reads_cut_call written cut)
  | assignment targeted before behind produced =>
      rw [← List.append_assoc] at cut
      obtain ⟨others, rfl, later⟩ := cut.behind_char (by decide)
      obtain ⟨left, rfl, last⟩ := later.behind_start produced.starts fun _ => BeginsStatement.not_closes
      simp only [List.length_append, List.length_cons] at small
      have solid : Solid isInlineBlank (left ++ []) := (produced.solid []).cut last.before_nil
      have read := reads_cut_producerWith produced cuts each last (by omega)
      rw [List.append_assoc]
      exact reads_statementWith_of_assignment targeted before
        (reads_assignment_of targeted before behind solid read)
  | «alias» targeted before behind written =>
      exact whole ((((written.firm.behind _).behind ['=']).behind _).behind _)
  | namedStyle isName filling written =>
      exact Reader.Reads.orTry _ (reads_cut_namedStyle isName filling written cut).lift
  | styleBinding isName filling inside =>
      have mark : Ahead (· ≠ '#') (kept ++ []) := Ahead.cut (.cons (by decide)) cut.before_nil
      exact (refuses_namedStyle mark).lift.orTry
        (Reader.Reads.orTry _ (reads_cut_styleBinding isName filling inside cut).lift)
  | level written =>
      exact ((written.opens []).cut cut.before_nil).reads_statementWith
        (reads_cut_namespaceWith written cuts each cut small)
  | fetched written => exact whole written.firm
  | reference written => exact whole written.firm

/-- The reader for statements of a depth reads every statement of which no more is left. -/
theorem readsCutStatements_within (depth : Nat) :
    ReadsCutStatements (fun cursor => statementWithin depth cursor) depth := by
  induction depth with
  | zero =>
      intro value text kept written cut small
      have left := cut.starts written.starts fun _ => BeginsStatement.not_closes
      exact absurd left.length_pos (by omega)
  | succ depth step =>
      intro value text kept written cut small
      exact reads_cut_statementWith written step (readsStatements_within depth) cut small

end Statements

/-! ### Recipes -/

section Recipes

variable {statements : List (Spanned Statement)} {kept text : List Char}

/-- With the line break that comes behind it, a recipe is a list of statements like any other. -/
theorem RecipeText.body (written : RecipeText statements text) :
    Body SpannedText Breaking (Filling isSeparator) statements (text ++ ['\n']) := by
  cases written with
  | empty filling => exact .empty filling
  | filled before run behind =>
      rw [List.append_assoc, List.append_assoc]
      exact .filled before run behind

/-- A recipe is read to the end of the text if it is cut off. -/
theorem RecipeText.reads_cut (written : RecipeText statements text) (cut : Cut kept text) :
    recipeStatements.Reads kept [] fun found => Statement.listAgrees statements found = true := by
  have cut' : Cut kept (text ++ ['\n']) := cut.before_closing (List.forall_mem_singleton.2 (by decide))
  intro offset
  exact written.body.reads_cut_statementList false (readsCutStatements_within _)
    (readsStatements_within _) cut' (List.length_append ▸ Nat.le_add_right _ _) offset

end Recipes

end Parser

/-- Whatever closing brackets are missing at the end of a recipe, all of it is accepted and read as
it is written. -/
theorem Recipe.parse_cut {recipe : Recipe} {text : List Char} {kept : String}
    (written : Parser.RecipeText recipe.statements text) (cut : Parser.Cut kept.toList text) :
    ∃ read, parse kept = .ok read ∧ recipe.agrees read = true := by
  obtain ⟨found, agree, same⟩ := written.reads_cut cut 0
  rw [List.append_nil] at same
  have lenient : parseLenient kept = (⟨found⟩, []) := by
    rw [parseLenient, Parser.Cursor.ofText, same]
  refine ⟨⟨found⟩, ?_, agree⟩
  rw [parse_of_nothing kept (congrArg Prod.snd lenient), lenient]

end RecipeGraph
