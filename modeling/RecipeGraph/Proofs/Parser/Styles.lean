/-
# Styles are read as they are written

The items of a style are told apart by what they begin with: tags by their mark, descriptions by a
quote, and properties by a character of a key. Whatever separates two of them, none of it could
belong to the first.
-/

import RecipeGraph.Proofs.Parser.Words

namespace RecipeGraph.Parser

/-! ### Behind a word -/

section Behind

variable {gap rest : List Char}

theorem isSeparator_of_isMultilineBlank {c : Char} (blank : isMultilineBlank c = true) :
    isSeparator c = true := by
  simp [isSeparator, blank]

theorem isMultilineBlank_of_isInlineBlank {c : Char} (blank : isInlineBlank c = true) :
    isMultilineBlank c = true := by
  simp [isMultilineBlank, blank]

theorem isSeparator_of_isInlineBlank {c : Char} (blank : isInlineBlank c = true) :
    isSeparator c = true :=
  isSeparator_of_isMultilineBlank (isMultilineBlank_of_isInlineBlank blank)

/-- No separator is part of a word, of a path or of a key. -/
theorem isSeparator_apart {c : Char} (blank : isSeparator c = true) :
    isNamePart c = false ∧ isKeyPart c = false ∧ c ≠ '.' := by
  simp only [isSeparator, isMultilineBlank, isInlineBlank, Bool.or_eq_true, beq_iff_eq] at blank
  rcases blank with (((rfl | rfl) | rfl) | rfl) | rfl
  all_goals decide

/-- Behind a word, a gap is as good as what comes behind the gap. -/
theorem Filling.apart (filling : Filling isSeparator gap) (apart : Apart rest) :
    Apart (gap ++ rest) := by
  refine (filling.ahead apart).mono ?_
  rintro c (blank | rfl | held)
  · exact ⟨(isSeparator_apart blank).1, (isSeparator_apart blank).2.2⟩
  · decide
  · exact held

/-- No gap begins with a part of a name, if what comes behind it does not. -/
theorem Filling.part (filling : Filling isSeparator gap) (part : Ahead (isNamePart · = false) rest) :
    Ahead (isNamePart · = false) (gap ++ rest) := by
  refine (filling.ahead part).mono ?_
  rintro c (blank | rfl | held)
  · exact (isSeparator_apart blank).1
  · decide
  · exact held

/-- Something stands between two items of a style, and none of it could belong to a word. -/
theorem Parting.apart (parting : Parting gap) (rest : List Char) : Apart (gap ++ rest) := by
  obtain ⟨nonempty, filling⟩ := parting
  have apart : Apart (gap ++ []) := filling.apart nofun
  rw [List.append_nil] at apart
  cases gap with
  | nil => exact absurd rfl nonempty
  | cons c gap => exact .cons (apart c rfl)

theorem Filling.ofInline (filling : Filling isInlineBlank gap) : Filling isSeparator gap :=
  filling.mono fun _ => isSeparator_of_isInlineBlank

/-- What stops a gap between statements stops one within a line. -/
theorem Solid.inline (solid : Solid isSeparator rest) : Solid isInlineBlank rest := by
  refine Ahead.mono solid fun c held => ⟨Bool.eq_false_iff.2 fun blank => ?_, held.2⟩
  rw [isSeparator_of_isInlineBlank blank] at held
  exact absurd held.1 (by decide)

theorem Solid.multiline (solid : Solid isSeparator rest) : Solid isMultilineBlank rest := by
  refine Ahead.mono solid fun c held => ⟨Bool.eq_false_iff.2 fun blank => ?_, held.2⟩
  rw [isSeparator_of_isMultilineBlank blank] at held
  exact absurd held.1 (by decide)

theorem Apart.cons {c : Char} (part : isNamePart c = false) (dot : c ≠ '.') : Apart (c :: rest) :=
  Ahead.cons ⟨part, dot⟩

theorem Apart.name (apart : Apart rest) : Ahead (isNamePart · = false) rest :=
  apart.mono fun _ held => held.1

end Behind

/-! ### Tags, descriptions and properties -/

section Items

variable {tag : Spanned QualifiedPath} {key : String} {item : StyleItem} {text rest : List Char}

theorem QuotedText.starts {content : String} (written : QuotedText content text) :
    Starts (fun c => c = '"' ∨ c = '\'') text := by
  obtain ⟨quote, _, _⟩ := written
  exact .cons quote

theorem IsKey.starts (isKey : IsKey key) : Starts (isKeyPart · = true) key.toList := by
  obtain ⟨nonempty, parts⟩ := isKey
  cases letters : key.toList with
  | nil => exact absurd letters nonempty
  | cons first others => exact .cons (parts first (letters ▸ List.mem_cons_self))

theorem reads_tagReference (written : TagText tag text) (apart : Apart rest) :
    tagReference.Reads text rest fun found => found.value = tag.value := by
  obtain ⟨path⟩ := written
  exact (Scanner.reads_exactly '#' _).bind fun _ _ => reads_qualifiedName path apart

theorem refuses_tagReference (others : Ahead (· ≠ '#') rest) : tagReference.Refuses rest :=
  (Scanner.refuses_exactly others).bind

theorem reads_property {value : String} {gap gap' : List Char} (isKey : IsKey key)
    (before : Filling isInlineBlank gap) (behind : Filling isInlineBlank gap')
    (written : QuotedText value text) :
    property.Reads (key.toList ++ (gap ++ ':' :: (gap' ++ text))) rest
      (· = .property key value) := by
  obtain ⟨nonempty, parts⟩ := isKey
  cases letters : key.toList with
  | nil => exact absurd letters nonempty
  | cons first others =>
      rw [letters] at parts
      have whole : String.ofList (first :: others) = key := by
        rw [← letters, String.ofList_toList]
      have colon : Ahead (fun c => isKeyPart c = false) (':' :: (gap' ++ text) ++ rest) :=
        .cons (by decide)
      have stops : Ahead (isKeyPart · = false) (gap ++ ':' :: (gap' ++ text) ++ rest) := by
        rw [List.append_assoc]
        refine (before.ahead colon).mono ?_
        rintro c (blank | rfl | held)
        · exact (isSeparator_apart (isSeparator_of_isMultilineBlank
            (isMultilineBlank_of_isInlineBlank blank))).2.1
        · decide
        · exact held
      have quoteSolid : Solid isInlineBlank (text ++ rest) := by
        refine (written.starts.append rest).ahead.mono ?_
        rintro c (rfl | rfl)
        all_goals decide
      have reads : propertyValue.Reads text rest (· = value) :=
        ((reads_quoted written).map fun _ same => same).orTry _
      have others' : ∀ c ∈ others, isKeyPart c = true :=
        fun c held => parts c (List.mem_cons_of_mem _ held)
      rw [property]
      refine (Scanner.reads_one (parts first List.mem_cons_self)).bind fun c start => ?_
      refine (Scanner.reads_run others' stops).bind fun run same => ?_
      refine (Scanner.reads_gap rfl before (.cons (by decide))).bind fun _ _ => ?_
      refine (Scanner.reads_exactly ':' _).bind fun _ _ => ?_
      refine (Scanner.reads_gap rfl behind quoteSolid).bind fun _ _ => ?_
      refine reads.bind_pure fun found held => ?_
      rw [start, same, whole, held]

/-- Whether two items say the same, wherever they stand. -/
inductive StyleItem.Agrees : StyleItem → StyleItem → Prop where
  | tag {path found : Spanned QualifiedPath} (same : found.value = path.value) :
      Agrees (.tag path) (.tag found)
  | entry (entry : StyleEntry) : Agrees (.entry entry) (.entry entry)

theorem reads_styleItem (written : ItemText item text) (apart : Apart rest) :
    styleItem.Reads text rest item.Agrees := by
  cases written with
  | tag tag =>
      exact ((reads_tagReference tag apart).map fun _ same => .tag same).orTry _
  | description quoted =>
      have noTag : Ahead (· ≠ '#') (text ++ rest) := by
        refine (quoted.starts.append rest).ahead.mono ?_
        rintro c (rfl | rfl)
        all_goals decide
      refine (refuses_tagReference noTag).map.orTry ?_
      refine Scanner.Reads.orTry _ ((reads_quoted quoted).map fun found same => ?_)
      rw [same]
      exact .entry _
  | @property key value gap gap' text isKey before behind quoted =>
      have ahead := ((isKey.starts.append (gap ++ ':' :: (gap' ++ text))).append rest).ahead
      have noTag : Ahead (· ≠ '#') (key.toList ++ (gap ++ ':' :: (gap' ++ text)) ++ rest) := by
        refine ahead.mono ?_
        rintro c part rfl
        exact absurd part (by decide)
      have noQuote : Ahead (fun c => c ≠ '"' ∧ c ≠ '\'')
          (key.toList ++ (gap ++ ':' :: (gap' ++ text)) ++ rest) := by
        refine ahead.mono fun c part => ⟨?_, ?_⟩
        · rintro rfl
          exact absurd part (by decide)
        · rintro rfl
          exact absurd part (by decide)
      refine (refuses_tagReference noTag).map.orTry ((refuses_quoted noQuote).map.orTry ?_)
      refine (reads_property isKey before behind quoted).map fun found same => ?_
      rw [same]
      exact .entry _

theorem refuses_styleItem
    (others : Ahead (fun c => c ≠ '#' ∧ (c ≠ '"' ∧ c ≠ '\'') ∧ isKeyPart c = false) rest) :
    styleItem.Refuses rest := by
  have noTag := refuses_tagReference (others.mono fun _ held => held.1)
  have noQuote := refuses_quoted (others.mono fun _ held => held.2.1)
  have noKey := Scanner.refuses_one (others.mono fun _ held => held.2.2)
  exact noTag.map.orTry_refuses (noQuote.map.orTry_refuses noKey.bind.map)

/-- An item begins with a mark, a quote or a character of a key, and so no gap goes on there. -/
theorem ItemText.starts (written : ItemText item text) :
    Starts (fun c => isSeparator c = false ∧ c ≠ '/') text := by
  cases written with
  | tag tag =>
      obtain ⟨path⟩ := tag
      exact .cons (by decide)
  | description quoted =>
      refine quoted.starts.mono ?_
      rintro c (rfl | rfl)
      all_goals decide
  | @property key value gap gap' text isKey before behind quoted =>
      refine (isKey.starts.mono fun c part => ⟨?_, ?_⟩).append _
      · refine Bool.eq_false_iff.2 fun blank => ?_
        rw [(isSeparator_apart blank).2.1] at part
        cases part
      · rintro rfl
        exact absurd part (by decide)

end Items

/-! ### Items in curly brackets -/

section Blocks

variable {α β : Type} {item : Scanner β} {writes : α → List Char → Prop} {agrees : α → β → Prop}
  {values : List α} {style : StyleBlock} {text gap rest : List Char}

/-- How the items between two curly brackets are read. -/
structure ReadsItems (item : Scanner β) (writes : α → List Char → Prop) (agrees : α → β → Prop) :
    Prop where
  reads : ∀ value text rest, writes value text → Apart rest → item.Reads text rest (agrees value)
  starts : ∀ value text, writes value text →
    Starts (fun c => isSeparator c = false ∧ c ≠ '/') text

/-- One turn over the items of a style. -/
abbrev itemTurn (item : Scanner β) : Scanner (Scanner.Turn β) := do
  separatorGap
  match ← Scanner.optional item with
  | some value => return .more value
  | none => return .stop

theorem ReadsItems.turn (each : ReadsItems item writes agrees) {value : α}
    (before : Filling isSeparator gap) (written : writes value text) (apart : Apart rest) :
    (itemTurn item).Reads (gap ++ text) rest fun found =>
      ∃ item, found = .more item ∧ agrees value item := by
  have skip := Scanner.reads_gap rfl before ((each.starts value text written).append rest).ahead
  exact skip.bind fun _ _ => (each.reads value text rest written apart).moreTurn

theorem ReadsItems.turn_length (each : ReadsItems item writes agrees) {value : α}
    (written : writes value text) (gap : List Char) : 0 < (gap ++ text).length := by
  rw [List.length_append]
  exact Nat.lt_add_left _ (each.starts value text written).length_pos

/-- The items of a run are read, each with the gap in front of it, and the gap behind the last. -/
theorem Run.readsTurns_items (run : Run writes Parting values text)
    (each : ReadsItems item writes agrees) {gap' : List Char}
    (behind : separatorGap.Reads gap' rest fun _ => True) (apart : Apart (gap' ++ rest))
    (ends : item.Refuses rest) (before : Filling isSeparator gap) :
    Scanner.ReadsTurns (itemTurn item) (gap ++ (text ++ gap')) rest (List.Forall₂ agrees values) := by
  induction run generalizing gap with
  | @one value text here =>
      have turn := each.turn before here apart
      have stop := behind.bind_nil fun _ _ => ends.stopTurn
      have turns := Scanner.ReadsTurns.moreOf (each.turn_length here gap) turn (.stopOf agrees stop)
      rw [List.append_assoc] at turns
      exact turns
  | @more value values text parting later here parted run step =>
      have apart' := parted.apart (later ++ gap' ++ rest)
      rw [← List.append_assoc] at apart'
      have turn := each.turn before here apart'
      have turns := Scanner.ReadsTurns.moreOf (each.turn_length here gap) turn (step parted.2)
      simp only [List.append_assoc] at turns ⊢
      exact turns

theorem Body.reads_separatedItems (body : Body writes Parting (Filling isSeparator) values text)
    (each : ReadsItems item writes agrees) (solid : Solid isSeparator rest) (apart : Apart rest)
    (ends : item.Refuses rest) :
    (separatedItems item).Reads text rest (List.Forall₂ agrees values) := by
  cases body with
  | empty filling =>
      have stop := (Scanner.reads_gap rfl filling solid).bind_nil fun _ _ => ends.stopTurn
      exact (Scanner.ReadsTurns.stopOf agrees stop).repeated
  | filled before run behind =>
      exact (run.readsTurns_items each (Scanner.reads_gap rfl behind solid) (behind.apart apart) ends
        before).repeated

theorem mem_tagsOf {path : Spanned QualifiedPath} {items : List StyleItem}
    (held : path ∈ tagsOf items) : .tag path ∈ items := by
  induction items with
  | nil => nomatch held
  | cons item rest step =>
      cases item with
      | tag first =>
          rcases List.mem_cons.1 held with rfl | later
          · exact List.mem_cons_self
          · exact List.mem_cons_of_mem _ (step later)
      | entry first => exact List.mem_cons_of_mem _ (step held)

theorem mem_entriesOf {entry : StyleEntry} {items : List StyleItem}
    (held : entry ∈ entriesOf items) : .entry entry ∈ items := by
  induction items with
  | nil => nomatch held
  | cons item rest step =>
      cases item with
      | tag first => exact List.mem_cons_of_mem _ (step held)
      | entry first =>
          rcases List.mem_cons.1 held with rfl | later
          · exact List.mem_cons_self
          · exact List.mem_cons_of_mem _ (step later)

/-- The items of a style that is read say the same as those that were written. -/
theorem tagsOf_agree {items found : List StyleItem}
    (agree : List.Forall₂ StyleItem.Agrees items found) :
    listsAgree Spanned.agrees (tagsOf items) (tagsOf found) = true ∧
      entriesOf items = entriesOf found := by
  induction agree with
  | nil => exact ⟨rfl, rfl⟩
  | cons here _ step =>
      cases here with
      | tag same =>
          refine ⟨?_, step.2⟩
          rw [tagsOf, tagsOf, listsAgree, step.1, Spanned.agrees, same, decide_eq_true rfl,
            Bool.and_true]
      | entry entry =>
          refine ⟨step.1, ?_⟩
          rw [entriesOf, entriesOf, step.2]

theorem readsItems_style : ReadsItems styleItem ItemText StyleItem.Agrees :=
  ⟨fun _ _ _ written apart => reads_styleItem written apart, fun _ _ written => written.starts⟩

/-- A style is read if its items are, and its bracket is. -/
theorem reads_styleBlock_of {items : List StyleItem} {body close : List Char}
    (tags : tagsOf items = style.tags) (entries : entriesOf items = style.entries)
    (read : (separatedItems styleItem).Reads body (close ++ rest)
      (List.Forall₂ StyleItem.Agrees items))
    (closed : (Scanner.closing '\x7d').Reads close rest fun _ => True) :
    styleBlock.Reads ('\x7b' :: (body ++ close)) rest fun found => style.agrees found = true := by
  rw [styleBlock]
  refine (Scanner.reads_exactly '\x7b' _).bind fun _ _ => read.bind fun found agree => ?_
  refine closed.bind_pure fun _ _ => ?_
  obtain ⟨sameTags, sameEntries⟩ := tagsOf_agree agree
  rw [StyleBlock.agrees, ← tags, ← entries, sameTags, sameEntries, decide_eq_true rfl, Bool.and_true]

theorem reads_styleBlock (written : StyleText style text) :
    styleBlock.Reads text rest fun found => style.agrees found = true := by
  obtain @⟨items, body, tags, entries, inside⟩ := written
  have solid : Solid isSeparator ('\x7d' :: rest) := .cons (by decide)
  have read := inside.reads_separatedItems readsItems_style solid (.cons (by decide) (by decide))
    (refuses_styleItem (.cons (by decide)))
  exact reads_styleBlock_of tags entries read (Scanner.reads_closing '\x7d' rest)

theorem refuses_styleBlock (others : Ahead (· ≠ '\x7b') rest) : styleBlock.Refuses rest :=
  (Scanner.refuses_exactly others).bind

/-- A style that may be missing is read if no curly bracket follows where there is none. -/
theorem reads_trailingStyle {style : Option StyleBlock} (written : StyleTail style text)
    (next : Next (· ≠ '\x7b') rest) :
    trailingStyle.Reads text rest fun found =>
      optionsAgree StyleBlock.agrees style found = true := by
  cases written with
  | missing =>
      refine (Scanner.refuses_behind_gap next fun _ => refuses_styleBlock).optional.mono ?_
      rintro _ rfl
      rfl
  | @present style gap text filling written =>
      have bracket : Solid isInlineBlank (text ++ rest) := by
        obtain ⟨_, _, _⟩ := written
        exact .cons (by decide)
      have read : Scanner.Reads (do inlineGap; styleBlock) (gap ++ text) rest
          fun found => style.agrees found = true :=
        (Scanner.reads_gap rfl filling bracket).bind fun _ _ => reads_styleBlock written
      refine read.optional.mono ?_
      rintro _ ⟨found, rfl, same⟩
      exact same

end Blocks

end RecipeGraph.Parser
