/-
# Calls are read as they are written

Calls nest, and the scanner for arguments goes only to a given depth. A text is never shorter than
the calls in it are deep, so a depth that is not below the length of the text is enough: that is the
induction. A path is an argument as well, and is told from a call by what comes behind its first
name.
-/

import RecipeGraph.Parser.Call
import RecipeGraph.Proofs.Parser.Styles

namespace RecipeGraph.Parser

variable {rest : List Char}

/-! ### Behind a path or an argument -/

/-- A text begins with a name, and what comes next behind that name is an accepted character. -/
def Leads (accept : Char → Prop) (text : List Char) : Prop :=
  ∃ name rest, text = name.toList ++ rest ∧ IsName name ∧ Ahead (isNamePart · = false) rest ∧
    Next accept rest

theorem Leads.mono {accept wider : Char → Prop} {text : List Char} (leads : Leads accept text)
    (more : ∀ c, accept c → wider c) : Leads wider text := by
  obtain ⟨name, rest, same, isName, part, next⟩ := leads
  exact ⟨name, rest, same, isName, part, next.mono more⟩

/-- Behind the first name of a path comes a dot or what follows the path. -/
theorem PathText.leads {path : QualifiedPath} {text : List Char} (written : PathText path text)
    (apart : Apart rest) {accept : Char → Prop} (dot : accept '.') (next : Next accept rest) :
    Leads accept (text ++ rest) := by
  obtain ⟨segments⟩ := path
  cases written with
  | @one name _ here =>
      obtain ⟨isName, rfl⟩ := here
      exact ⟨name, rest, rfl, isName, apart.name, next⟩
  | @more name _ _ _ later here parted run =>
      obtain ⟨isName, rfl⟩ := here
      subst parted
      exact ⟨name, _, List.append_assoc _ _ _, isName, .cons (by decide),
        .here (by decide) (by decide) dot⟩

/-- What stands behind an argument. -/
def EndsArgument (c : Char) : Prop :=
  c = ',' ∨ c = ')' ∨ c = '\n'

theorem Next.apart {accept : Char → Prop} (next : Next accept rest)
    (others : ∀ c, accept c → isNamePart c = false ∧ c ≠ '.') : Apart rest := by
  refine next.ahead.mono ?_
  rintro c (blank | rfl | held)
  · have apart := isSeparator_apart (isSeparator_of_isMultilineBlank
      (isMultilineBlank_of_isInlineBlank blank))
    exact ⟨apart.1, apart.2.2⟩
  · decide
  · exact others c held

theorem EndsArgument.apart {c : Char} (ends : EndsArgument c) : isNamePart c = false ∧ c ≠ '.' := by
  rcases ends with rfl | rfl | rfl
  all_goals decide

/-! ### Lists of arguments -/

section Lists

variable {argument : Scanner Argument} {limit : Nat} {arguments : List Argument}
  {text gap gap' : List Char}

/-- What is needed of a scanner that reads arguments up to a length. -/
structure ReadsArguments (argument : Scanner Argument) (limit : Nat) : Prop where
  reads : ∀ value text rest, ArgumentText value text → text.length ≤ limit →
    Next EndsArgument rest → argument.Reads text rest fun found => value.agrees found = true
  refuses : ∀ rest, Ahead (isNameStart · = false) rest → argument.Refuses rest

theorem ArgumentText.starts {value : Argument} (written : ArgumentText value text) :
    Starts (isNameStart · = true) text := by
  cases written with
  | call written =>
      obtain ⟨isName, _, _, _⟩ := written
      exact isName.starts.append _
  | reference written => exact written.starts

/-- Behind the gap that follows an argument stands what ends it. -/
theorem Filling.endsArgument (filling : Filling isMultilineBlank gap)
    (next : Next EndsArgument rest) : Next EndsArgument (gap ++ rest) := by
  refine next.behind filling fun other blank => ?_
  rw [isMultilineBlank, Bool.or_eq_true, beq_iff_eq] at blank
  refine blank.imp_right ?_
  rintro rfl
  exact ⟨by decide, .inr (.inr rfl)⟩

theorem ArgumentText.solid {value : Argument} (written : ArgumentText value text)
    (more rest : List Char) : Solid isMultilineBlank (text ++ more ++ rest) :=
  Solid.multiline (((written.starts.mono fun _ => isNameStart_solid).append more).append rest).ahead

/-- An argument, with the gaps on both sides and the comma that says that there are more. -/
theorem ReadsArguments.moreTurn (each : ReadsArguments argument limit) {value : Argument}
    (before : Filling isMultilineBlank gap) (written : ArgumentText value text)
    (small : text.length ≤ limit) (behind : Filling isMultilineBlank gap') :
    (argumentTurn argument).Reads (gap ++ (text ++ (gap' ++ [',']))) rest fun found =>
      ∃ item, found = .more item ∧ value.agrees item = true := by
  have next : Next EndsArgument (gap' ++ [','] ++ rest) := by
    rw [List.append_assoc]
    exact behind.endsArgument (.here (by decide) (by decide) (.inl rfl))
  rw [argumentTurn]
  refine (Scanner.reads_gap rfl before (written.solid _ _)).bind fun _ _ => ?_
  refine (each.reads value text _ written small next).optional.bind ?_
  rintro _ ⟨item, rfl, same⟩
  refine (Scanner.reads_gap rfl behind (.cons (by decide))).bind fun _ _ => ?_
  refine (Scanner.reads_exactly ',' rest).optional.bind_nil ?_
  rintro _ ⟨_, rfl, _⟩
  exact Scanner.reads_pure ⟨item, rfl, same⟩

/-- An argument, with the gaps on both sides, behind which no comma says that there are more. -/
theorem reads_lastTurn_of {value : Argument} (before : Filling isMultilineBlank gap)
    (solid : Solid isMultilineBlank (text ++ gap' ++ rest))
    (read : argument.Reads text (gap' ++ rest) fun found => value.agrees found = true)
    (skip : multilineGap.Reads gap' rest fun _ => True)
    (noComma : (Scanner.exactly ',').Refuses rest) :
    (argumentTurn argument).Reads (gap ++ (text ++ gap')) rest fun found =>
      ∃ item, found = .last item ∧ value.agrees item = true := by
  rw [argumentTurn]
  refine (Scanner.reads_gap rfl before solid).bind fun _ _ => read.optional.bind ?_
  rintro _ ⟨item, rfl, same⟩
  refine skip.bind_nil fun _ _ => noComma.optional.bind_nil ?_
  rintro _ rfl
  exact Scanner.reads_pure ⟨item, rfl, same⟩

/-- The last argument, in front of the closing bracket. -/
theorem ReadsArguments.lastTurn (each : ReadsArguments argument limit) {value : Argument}
    (before : Filling isMultilineBlank gap) (written : ArgumentText value text)
    (small : text.length ≤ limit) (behind : Filling isMultilineBlank gap') :
    (argumentTurn argument).Reads (gap ++ (text ++ gap')) (')' :: rest) fun found =>
      ∃ item, found = .last item ∧ value.agrees item = true := by
  have next : Next EndsArgument (gap' ++ ')' :: rest) :=
    behind.endsArgument (.here (by decide) (by decide) (.inr (.inl rfl)))
  exact reads_lastTurn_of before (written.solid _ _) (each.reads value text _ written small next)
    (Scanner.reads_gap rfl behind (.cons (by decide))) (Scanner.refuses_exactly (.cons (by decide)))

/-- No argument at all. -/
theorem reads_stopTurn_of (skip : multilineGap.Reads gap rest fun _ => True)
    (none : argument.Refuses rest) : (argumentTurn argument).Reads gap rest (· = .stop) := by
  rw [argumentTurn]
  refine skip.bind_nil fun _ _ => none.optional.bind_nil ?_
  rintro _ rfl
  exact Scanner.reads_pure rfl

/-- Whether what was read says the same as the arguments that were written. -/
theorem Argument.listAgrees_of_forall₂ {found : List Argument}
    (agree : List.Forall₂ (fun value item => value.agrees item = true) arguments found) :
    Argument.listAgrees arguments found = true := by
  induction agree with
  | nil => rfl
  | cons here _ step => rw [Argument.listAgrees, here, step, Bool.and_true]

/-- The arguments of a run are read up to the closing bracket. -/
theorem Run.readsTurns_arguments (run : Run ArgumentText (Comma isMultilineBlank) arguments text)
    (each : ReadsArguments argument limit) (small : text.length ≤ limit)
    (behind : Filling isMultilineBlank gap') (before : Filling isMultilineBlank gap) :
    Scanner.ReadsTurns (argumentTurn argument) (gap ++ (text ++ gap')) (')' :: rest)
      (List.Forall₂ (fun value item => value.agrees item = true) arguments) := by
  induction run generalizing gap with
  | one here =>
      refine (Scanner.ReadsTurns.last (each.lastTurn before here small behind)).mono ?_
      rintro _ ⟨item, rfl, same⟩
      exact .cons same .nil
  | @more value values text comma later here parted run step =>
      obtain @⟨gap₁, gap₂, before', behind'⟩ := parted
      simp only [List.length_append] at small
      have turn : (argumentTurn argument).Reads (gap ++ (text ++ (gap₁ ++ [','])))
          (gap₂ ++ (later ++ gap') ++ ')' :: rest) fun found =>
            ∃ item, found = .more item ∧ value.agrees item = true :=
        each.moreTurn before here (by omega) before'
      have nonempty : 0 < (gap ++ (text ++ (gap₁ ++ [',']))).length := by
        simp only [List.length_append, List.length_singleton]
        omega
      have turns := Scanner.ReadsTurns.moreOf nonempty turn (step (by omega) behind')
      simpa only [List.append_assoc, List.cons_append, List.nil_append] using turns

/-- A list of arguments is read if the turns over it are, and its bracket is. -/
theorem reads_argumentList_of {body close : List Char}
    (turns : Scanner.ReadsTurns (argumentTurn argument) body (close ++ rest)
      (List.Forall₂ (fun value item => value.agrees item = true) arguments))
    (solid : Solid isMultilineBlank (close ++ rest))
    (closed : (Scanner.closing ')').Reads close rest fun _ => True) :
    (argumentList argument).Reads ('(' :: (body ++ close)) rest
      fun found => Argument.listAgrees arguments found = true := by
  rw [argumentList]
  refine (Scanner.reads_exactly '(' _).bind fun _ _ => turns.repeated.bind fun found agree => ?_
  refine Scanner.Reads.bind (Scanner.reads_gap rfl .nil solid) fun _ _ => ?_
  exact closed.bind_pure fun _ _ => Argument.listAgrees_of_forall₂ agree

theorem Body.reads_argumentList
    (body : Body ArgumentText (Comma isMultilineBlank) (Filling isMultilineBlank) arguments text)
    (each : ReadsArguments argument limit) (small : text.length ≤ limit) :
    (argumentList argument).Reads ('(' :: (text ++ [')'])) rest
      fun found => Argument.listAgrees arguments found = true := by
  have turns : Scanner.ReadsTurns (argumentTurn argument) text (')' :: rest)
      (List.Forall₂ (fun value item => value.agrees item = true) arguments) := by
    cases body with
    | empty filling =>
        have solid : Solid isMultilineBlank (')' :: rest) := .cons (by decide)
        exact .stopOf _ (reads_stopTurn_of (Scanner.reads_gap rfl filling solid)
          (each.refuses _ (.cons (by decide))))
    | filled before run behind =>
        simp only [List.length_append] at small
        exact run.readsTurns_arguments each (by omega) behind before
  exact reads_argumentList_of turns (.cons (by decide)) (Scanner.reads_closing ')' rest)

end Lists

/-! ### Calls -/

section Calls

variable {inner : Scanner Argument} {limit : Nat} {made : Call} {text : List Char}

/-- A call is read if its arguments are, with their brackets, and its style is. -/
theorem reads_callWith_of {name : Spanned String} {arguments : List Argument}
    {style : Option StyleBlock} {gap list tail : List Char} (isName : IsName name.value)
    (filling : Filling isInlineBlank gap) (bracket : Ahead (· = '(') (list ++ (tail ++ rest)))
    (read : (argumentList inner).Reads list (tail ++ rest)
      fun found => Argument.listAgrees arguments found = true)
    (styled : trailingStyle.Reads tail rest
      fun found => optionsAgree StyleBlock.agrees style found = true) :
    (callWith inner).Reads (name.value.toList ++ (gap ++ (list ++ tail))) rest
      fun found => Call.agrees ⟨name, arguments, style⟩ found.value = true := by
  have apart : Apart (gap ++ (list ++ tail) ++ rest) := by
    rw [List.append_assoc, List.append_assoc]
    refine filling.ofInline.apart (bracket.mono ?_)
    rintro c rfl
    decide
  have solid : Solid isInlineBlank (list ++ tail ++ rest) := by
    rw [List.append_assoc]
    refine bracket.mono ?_
    rintro c rfl
    decide
  rw [callWith]
  refine Scanner.Reads.located
    (?_ : Scanner.Reads _ _ _ (Call.agrees ⟨name, arguments, style⟩ · = true))
  refine (reads_identifier isName apart.name).bind fun found same => ?_
  refine (Scanner.reads_gap rfl filling solid).bind fun _ _ => ?_
  refine read.bind fun found' agree => styled.bind_pure fun style' agree' => ?_
  rw [Call.agrees, Spanned.agrees, same, agree, agree', decide_eq_true rfl]
  rfl

theorem reads_callWith (written : CallText ArgumentText made text)
    (each : ReadsArguments inner limit) (small : text.length ≤ limit + 1)
    (next : Next (· ≠ '\x7b') rest) :
    (callWith inner).Reads text rest fun found => made.agrees found.value = true := by
  obtain @⟨name, arguments, style, gap, body, tail, isName, filling, inside, styled⟩ := written
  have list : '(' :: (body ++ ')' :: tail) = '(' :: (body ++ [')']) ++ tail := by simp
  have bound : body.length ≤ limit := by
    simp only [List.length_append, List.length_cons] at small
    omega
  rw [list]
  exact reads_callWith_of isName filling (.cons rfl) (inside.reads_argumentList each bound)
    (reads_trailingStyle styled next)

/-- A name is no call if no bracket follows it. -/
theorem Leads.refuses_callWith (leads : Leads (· ≠ '(') rest) : (callWith inner).Refuses rest := by
  obtain ⟨name, rest, rfl, isName, part, next⟩ := leads
  refine Scanner.Refuses.located ((reads_identifier isName part).bind_refuses fun _ _ => ?_)
  exact Scanner.refuses_behind_gap next fun rest ahead => (Scanner.refuses_exactly ahead).bind.bind

theorem refuses_callWith (others : Ahead (isNameStart · = false) rest) :
    (callWith inner).Refuses rest :=
  (refuses_identifier others).bind.located

/-- The scanner for arguments of a depth reads every argument that is no longer. -/
theorem readsArguments_within (depth : Nat) :
    ReadsArguments (fun cursor => argumentWithin depth cursor) depth := by
  induction depth with
  | zero =>
      constructor
      · intro value text rest written small
        exact absurd written.starts.length_pos (by omega)
      · exact fun _ _ _ => rfl
  | succ depth step =>
      have unfolded : (fun cursor => argumentWithin (depth + 1) cursor) =
          Scanner.orTry (Argument.call <$> callWith fun inner => argumentWithin depth inner)
            (Argument.reference <$> qualifiedName) := rfl
      rw [unfolded]
      constructor
      · intro value text rest written small next
        have apart : Apart rest := next.apart fun _ => EndsArgument.apart
        cases written with
        | call written =>
            have noStyle : Next (· ≠ '\x7b') rest := by
              refine next.mono ?_
              rintro c (rfl | rfl | rfl)
              all_goals decide
            refine Scanner.Reads.orTry _ ?_
            exact (reads_callWith written step small noStyle).map fun _ same => same
        | reference written =>
            have noCall : Next (· ≠ '(') rest := by
              refine next.mono ?_
              rintro c (rfl | rfl | rfl)
              all_goals decide
            refine (written.leads apart (by decide) noCall).refuses_callWith.map.orTry ?_
            refine (reads_qualifiedName written apart).map fun found same => ?_
            rw [Argument.agrees, Spanned.agrees, same, decide_eq_true rfl]
      · intro rest others
        exact (refuses_callWith others).map.orTry_refuses (refuses_qualifiedName others).map

/-- Every argument is read, however deep it is. -/
theorem readsArguments (limit : Nat) : ReadsArguments argument limit := by
  constructor
  · intro value text rest written _ next offset
    refine (readsArguments_within _).reads value text rest written ?_ next offset
    simp
  · intro rest others offset
    exact (readsArguments_within _).refuses rest others offset

theorem reads_call (written : CallText ArgumentText made text) (next : Next (· ≠ '\x7b') rest) :
    call.Reads text rest fun found => made.agrees found.value = true :=
  reads_callWith written (readsArguments text.length) (Nat.le_succ _) next

end Calls

end RecipeGraph.Parser
