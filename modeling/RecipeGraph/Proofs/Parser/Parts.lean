/-
# The parts of statements are read as they are written

Many statements begin with a name, and which of them it is shows only at the character that comes
next behind it. So each part is read if that character fits, and is refused without a trace if it
does not.
-/

import RecipeGraph.Parser.Statement
import RecipeGraph.Proofs.Parser.Calls

namespace RecipeGraph.Parser

variable {rest : List Char} {accept : Char → Prop}

-- What a statement has been read as decides by itself which of its parts have to agree.
attribute [simp] Statement.agrees

/-- What stands behind a statement. -/
def EndsStatement (c : Char) : Prop :=
  c = '\n' ∨ c = ';' ∨ c = ']'

theorem EndsStatement.apart {c : Char} (ends : EndsStatement c) :
    isNamePart c = false ∧ c ≠ '.' := by
  rcases ends with rfl | rfl | rfl
  all_goals decide

/-- Behind a name, the character does not make it more than a reference. -/
def Unopened (c : Char) : Prop :=
  c ≠ '@' ∧ c ≠ '[' ∧ c ≠ '(' ∧ c ≠ '\x7b' ∧ c ≠ ',' ∧ c ≠ '='

theorem EndsStatement.unopened {c : Char} (ends : EndsStatement c) : Unopened c := by
  rcases ends with rfl | rfl | rfl
  all_goals exact ⟨by decide, by decide, by decide, by decide, by decide, by decide⟩

/-! ### Names in front -/

section Names

variable {text : List Char}

/-- A name that may be missing is read with the gap behind it. -/
theorem reads_leadingName {name : Option (Spanned String)} (named : LeadingName name text)
    (part : Ahead (isNamePart · = false) rest) (solid : Solid isInlineBlank rest) :
    (leadingName (Cursor.skipGap isInlineBlank)).Reads text rest fun found =>
      optionsAgree Spanned.agrees name found = true := by
  cases named with
  | missing =>
      have noName : identifier.Refuses rest := by
        refine refuses_identifier (part.mono fun c held => Bool.eq_false_iff.2 fun start => ?_)
        rw [isNamePart_of_isNameStart start] at held
        cases held
      refine (Scanner.Refuses.bind noName).optional.mono ?_
      rintro _ rfl
      rfl
  | @present name gap isName filling =>
      have apart := filling.ofInline.part part
      have read : Scanner.Reads (do
          let name ← identifier
          Scanner.moveBy (Cursor.skipGap isInlineBlank)
          return name) (name.value.toList ++ gap) rest fun found => found.value = name.value :=
        (reads_identifier isName apart).bind fun found same =>
          (Scanner.reads_gap rfl filling solid).bind_pure fun _ _ => same
      refine read.optional.mono ?_
      rintro _ ⟨found, rfl, same⟩
      rw [optionsAgree, Spanned.agrees, same, decide_eq_true rfl]

/-- Behind a name, and the gap that follows it, stands what comes next on the line. -/
theorem Leads.leadingName (leads : Leads accept rest) (offset : Nat) :
    ∃ found stop, Parser.leadingName (Cursor.skipGap isInlineBlank) ⟨rest, offset⟩ =
      .done found stop ∧ Ahead accept stop.rest := by
  obtain ⟨name, rest, rfl, isName, part, next⟩ := leads
  obtain ⟨found, _, same⟩ := reads_identifier isName part offset
  refine ⟨some found, Cursor.skipGap isInlineBlank ⟨rest, offset + byteLength name.toList⟩, ?_, ?_⟩
  · rw [Parser.leadingName, Scanner.optional, Scanner.bind_apply, same]
    rfl
  · exact next _

end Names

/-! ### Imports -/

section Imports

variable {source : Import} {text : List Char}

theorem reads_importClause (written : ImportText source text) :
    importClause.Reads text rest fun found => source.agrees found.value = true := by
  obtain @⟨lead, gap, text, named, filling, location⟩ := written
  have quote : Solid isInlineBlank (text ++ rest) := by
    refine (location.starts.append rest).ahead.mono ?_
    rintro c (rfl | rfl)
    all_goals decide
  rw [importClause]
  refine Scanner.Reads.located (?_ : Scanner.Reads _ _ _ (source.agrees · = true))
  refine (reads_leadingName named (.cons (by decide)) (.cons (by decide))).bind fun found agree => ?_
  refine (Scanner.reads_exactly '@' _).bind fun _ _ => ?_
  refine (Scanner.reads_gap rfl filling quote).bind fun _ _ => ?_
  refine (reads_quoted location).optional.located.bind_pure ?_
  rintro ⟨_, span⟩ ⟨value, rfl, same⟩
  rw [Import.agrees, agree, Option.getD_some, Spanned.agrees, same, decide_eq_true rfl]
  rfl

theorem Leads.refuses_importClause (leads : Leads (· ≠ '@') rest) : importClause.Refuses rest := by
  refine Scanner.Refuses.located fun offset => ?_
  obtain ⟨found, ⟨left, stop⟩, same, ahead⟩ := leads.leadingName offset
  rw [Scanner.bind_apply, same]
  exact (Scanner.refuses_exactly ahead).bind stop

theorem refuses_importClause_unnamed
    (others : Ahead (fun c => isNameStart c = false ∧ c ≠ '@') rest) : importClause.Refuses rest := by
  have noName : identifier.Refuses rest := refuses_identifier (others.mono fun _ held => held.1)
  have noMark := Scanner.refuses_exactly (others.mono fun _ held => held.2)
  exact ((Scanner.Refuses.bind noName).optional.bind_refuses fun _ _ => noMark.bind).located

end Imports

/-! ### Targets -/

section Targets

variable {left : Target} {lefts : List Target} {name : String} {text : List Char}

theorem listsAgree_of_forall₂ {α : Type} {agrees : α → α → Bool} {ones others : List α}
    (agree : List.Forall₂ (agrees · · = true) ones others) : listsAgree agrees ones others = true := by
  induction agree with
  | nil => rfl
  | cons here _ step => rw [listsAgree, here, step, Bool.and_true]

theorem StyleTail.apart {style : Option StyleBlock} (styled : StyleTail style text)
    (part : Ahead (isNamePart · = false) rest) : Ahead (isNamePart · = false) (text ++ rest) := by
  cases styled with
  | missing => exact part
  | @present style gap text filling written =>
      obtain ⟨_, _, _⟩ := written
      rw [List.append_assoc]
      exact (filling.ofInline.apart (.cons (by decide) (by decide))).name

/-- Behind a name with its style comes the style or what follows. -/
theorem StyleTail.next {style : Option StyleBlock} (styled : StyleTail style text)
    (bracket : accept '\x7b') (next : Next accept rest) : Next accept (text ++ rest) := by
  cases styled with
  | missing => exact next
  | @present style gap text filling written =>
      obtain ⟨_, _, _⟩ := written
      rw [List.append_assoc]
      exact Next.behind_inline filling (.here (by decide) (by decide) bracket)

theorem reads_target (written : TargetText left text) (part : Ahead (isNamePart · = false) rest)
    (next : Next (· ≠ '\x7b') rest) :
    target.Reads text rest fun found => left.agrees found = true := by
  obtain ⟨isName, styled⟩ := written
  rw [target]
  refine (reads_identifier isName (styled.apart part)).bind fun found same => ?_
  refine (reads_trailingStyle styled next).bind_pure fun style agree => ?_
  rw [Target.agrees, Spanned.agrees, same, agree, decide_eq_true rfl]
  rfl

/-- What stands behind the variables on the left of an assignment. -/
def EndsTargets (c : Char) : Prop :=
  c ≠ '\x7b' ∧ c ≠ ','

theorem reads_targets (run : Run TargetText (Comma isInlineBlank) lefts text)
    (part : Ahead (isNamePart · = false) rest) (next : Next EndsTargets rest) :
    targets.Reads text rest fun found => listsAgree Target.agrees lefts found = true := by
  have each : ReadsEach target
      (do
        inlineGap
        Scanner.exactly ','
        inlineGap)
      TargetText (Comma isInlineBlank)
      (fun rest => Ahead (isNamePart · = false) rest ∧ Next (· ≠ '\x7b') rest)
      (fun left found => left.agrees found = true) lefts := by
    constructor
    · rintro left _ text rest written ⟨part, next⟩
      exact reads_target written part next
    · rintro left _ gap text rest parted written
      obtain @⟨before, behind, filling, filling'⟩ := parted
      have start : Solid isInlineBlank (text ++ rest) := by
        obtain ⟨isName, _⟩ := written
        exact Solid.inline
          (((isName.starts.mono fun _ => isNameStart_solid).append _).append rest).ahead
      refine ⟨?_, ⟨?_, ?_⟩, ?_⟩
      · rw [List.length_append, List.length_cons]
        omega
      · rw [List.append_assoc]
        exact (filling.ofInline.apart (.cons (by decide) (by decide))).name
      · rw [List.append_assoc]
        exact Next.behind_inline filling (.here (by decide) (by decide) (by decide))
      · refine (Scanner.reads_gap rfl filling (.cons (by decide))).bind fun _ _ => ?_
        exact (Scanner.reads_exactly ',' _).bind fun _ _ => Scanner.reads_gap rfl filling' start
  have comma : Scanner.Refuses (do
      inlineGap
      Scanner.exactly ','
      inlineGap) rest := by
    refine Scanner.refuses_behind_gap next fun rest ahead => ?_
    exact (Scanner.refuses_exactly (ahead.mono fun _ held => held.2)).bind
  exact (run.reads_separated each ⟨part, next.mono fun _ held => held.1⟩ comma.bind).mono
    fun _ => listsAgree_of_forall₂

end Targets

/-! ### Declarations and bindings of styles -/

section Styles

variable {name : Spanned String} {style : StyleBlock} {tags : List (Spanned QualifiedPath)}
  {gap text : List Char}

/-- A declaration is read if its style is. -/
theorem reads_namedStyle_of (isName : IsName name.value) (filling : Filling isInlineBlank gap)
    (bracket : Ahead (· = '\x7b') (text ++ rest))
    (read : styleBlock.Reads text rest fun found => style.agrees found = true) :
    namedStyle.Reads ('#' :: (name.value.toList ++ (gap ++ text))) rest fun found =>
      Statement.agrees (.namedStyle name style) found = true := by
  have apart : Apart (gap ++ text ++ rest) := by
    rw [List.append_assoc]
    refine filling.ofInline.apart (bracket.mono ?_)
    rintro c rfl
    decide
  have solid : Solid isInlineBlank (text ++ rest) := by
    refine bracket.mono ?_
    rintro c rfl
    decide
  rw [namedStyle]
  refine (Scanner.reads_exactly '#' _).bind fun _ _ => ?_
  refine (reads_identifier isName apart.name).bind fun found same => ?_
  refine (Scanner.reads_gap rfl filling solid).bind fun _ _ => ?_
  refine read.bind_pure fun style' agree => ?_
  rw [Statement.agrees, Spanned.agrees, same, agree, decide_eq_true rfl]
  rfl

theorem reads_namedStyle (isName : IsName name.value) (filling : Filling isInlineBlank gap)
    (written : StyleText style text) :
    namedStyle.Reads ('#' :: (name.value.toList ++ (gap ++ text))) rest fun found =>
      Statement.agrees (.namedStyle name style) found = true := by
  have bracket : Ahead (· = '\x7b') (text ++ rest) := by
    obtain ⟨_, _, _⟩ := written
    exact .cons rfl
  exact reads_namedStyle_of isName filling bracket (reads_styleBlock written)

theorem readsItems_tags : ReadsItems tagReference TagText (Spanned.agrees · · = true) := by
  constructor
  · intro tag text rest written apart
    exact (reads_tagReference written apart).mono fun found same => decide_eq_true same.symm
  · intro tag text written
    obtain ⟨path⟩ := written
    exact .cons (by decide)

/-- A binding is read if its tags are, and its bracket is. -/
theorem reads_styleBinding_of {body close : List Char} (isName : IsName name.value)
    (filling : Filling isInlineBlank gap)
    (read : (separatedItems tagReference).Reads body (close ++ rest)
      (List.Forall₂ (Spanned.agrees · · = true) tags))
    (closed : (Scanner.closing '\x7d').Reads close rest fun _ => True) :
    styleBinding.Reads ('%' :: (name.value.toList ++ (gap ++ '\x7b' :: (body ++ close)))) rest
      fun found => Statement.agrees (.styleBinding name tags) found = true := by
  have apart : Apart (gap ++ '\x7b' :: (body ++ close) ++ rest) := by
    rw [List.append_assoc]
    exact filling.ofInline.apart (.cons (by decide) (by decide))
  rw [styleBinding]
  refine (Scanner.reads_exactly '%' _).bind fun _ _ => ?_
  refine (reads_identifier isName apart.name).bind fun found same => ?_
  refine (Scanner.reads_gap rfl filling (.cons (by decide))).bind fun _ _ => ?_
  refine (Scanner.reads_exactly '\x7b' _).bind fun _ _ => read.bind fun tags' agree => ?_
  refine closed.bind_pure fun _ _ => ?_
  rw [Statement.agrees, Spanned.agrees, same, listsAgree_of_forall₂ agree, decide_eq_true rfl]
  rfl

theorem reads_styleBinding (isName : IsName name.value) (filling : Filling isInlineBlank gap)
    (inside : Body TagText Parting (Filling isSeparator) tags text) :
    styleBinding.Reads ('%' :: (name.value.toList ++ (gap ++ '\x7b' :: (text ++ ['\x7d'])))) rest
      fun found => Statement.agrees (.styleBinding name tags) found = true := by
  have noTag : tagReference.Refuses ('\x7d' :: rest) := refuses_tagReference (.cons (by decide))
  have read := inside.reads_separatedItems readsItems_tags (.cons (by decide))
    (.cons (by decide) (by decide)) noTag
  exact reads_styleBinding_of isName filling read (Scanner.reads_closing '\x7d' rest)

theorem refuses_namedStyle (others : Ahead (· ≠ '#') rest) : namedStyle.Refuses rest :=
  (Scanner.refuses_exactly others).bind

theorem refuses_styleBinding (others : Ahead (· ≠ '%') rest) : styleBinding.Refuses rest :=
  (Scanner.refuses_exactly others).bind

end Styles

/-! ### Arguments behind a namespace -/

section Arguments

variable {arguments : List Argument} {text : List Char}

theorem reads_trailingArguments (written : ArgumentsTail arguments text)
    (next : Next (· ≠ '(') rest) :
    trailingArguments.Reads text rest fun found =>
      Argument.listAgrees arguments found = true := by
  rw [trailingArguments]
  cases written with
  | missing =>
      have noBracket : Scanner.Refuses (do inlineGap; argumentList argument) rest :=
        Scanner.refuses_behind_gap next fun _ ahead => (Scanner.refuses_exactly ahead).bind
      refine noBracket.optional.bind_pure ?_
      rintro _ rfl
      rfl
  | @present arguments gap body filling inside =>
      have read : Scanner.Reads (do inlineGap; argumentList argument)
          (gap ++ '(' :: (body ++ [')'])) rest fun found =>
            Argument.listAgrees arguments found = true :=
        (Scanner.reads_gap rfl filling (.cons (by decide))).bind fun _ _ =>
          inside.reads_argumentList (readsArguments body.length) le_rfl
      refine read.optional.bind_pure ?_
      rintro _ ⟨found, rfl, same⟩
      exact same

end Arguments

end RecipeGraph.Parser
