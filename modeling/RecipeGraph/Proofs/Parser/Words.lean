/-
# Words are read as they are written

A name is read as a whole when nothing that could belong to it comes behind it, and so is a path
when no dot does either. Quoted texts end by themselves.
-/

import RecipeGraph.Proofs.Parser.Grammar
import RecipeGraph.Proofs.Parser.Reads

namespace RecipeGraph.Parser

/-! ### Characters -/

theorem isNameStart_solid {c : Char} (start : isNameStart c = true) :
    isSeparator c = false ∧ c ≠ '/' := by
  constructor
  · cases blank : isSeparator c with
    | false => rfl
    | true =>
        simp only [isSeparator, isMultilineBlank, isInlineBlank, Bool.or_eq_true, beq_iff_eq] at blank
        rcases blank with (((rfl | rfl) | rfl) | rfl) | rfl
        all_goals exact absurd start (by decide)
  · rintro rfl
    exact absurd start (by decide)

/-! ### Runs of items -/

section Separated

variable {α β : Type} {item : Scanner β} {between : Scanner Unit} {writes : α → List Char → Prop}
  {parts follow : List Char → Prop} {agrees : α → β → Prop} {values : List α} {text rest : List Char}

/-- What is needed to read each of several values, and what stands between two of them. -/
structure ReadsEach (item : Scanner β) (between : Scanner Unit) (writes : α → List Char → Prop)
    (parts follow : List Char → Prop) (agrees : α → β → Prop) (values : List α) : Prop where
  reads : ∀ value ∈ values, ∀ text rest, writes value text → follow rest →
    item.Reads text rest (agrees value)
  parted : ∀ value ∈ values, ∀ gap text rest, parts gap → writes value text → 0 < gap.length ∧
    follow (gap ++ (text ++ rest)) ∧ between.Reads gap (text ++ rest) fun _ => True

theorem ReadsEach.tail {value : α}
    (each : ReadsEach item between writes parts follow agrees (value :: values)) :
    ReadsEach item between writes parts follow agrees values :=
  ⟨fun value held => each.reads value (List.mem_cons_of_mem _ held),
    fun value held => each.parted value (List.mem_cons_of_mem _ held)⟩

/-- A run begins with one of its items. -/
theorem Run.first (run : Run writes parts values text) :
    ∃ value ∈ values, ∃ here later, writes value here ∧ text = here ++ later := by
  cases run with
  | @one value text here => exact ⟨value, List.mem_cons_self, text, [], here, by simp⟩
  | @more value _ text gap later here => exact ⟨value, List.mem_cons_self, text, _, here, rfl⟩

/-- A run begins like its items. -/
theorem Run.starts {accept : Char → Prop} (run : Run writes parts values text)
    (each : ∀ value text, writes value text → Starts accept text) : Starts accept text := by
  obtain ⟨value, _, here, later, written, rfl⟩ := run.first
  exact (each value here written).append later

theorem ReadsEach.follows (each : ReadsEach item between writes parts follow agrees values)
    (run : Run writes parts values text) {gap : List Char} (parted : parts gap)
    (rest : List Char) : follow (gap ++ text ++ rest) := by
  obtain ⟨value, held, here, later, written, rfl⟩ := run.first
  have follows := (each.parted value held gap here (later ++ rest) parted written).2.1
  simpa only [List.append_assoc] using follows

/-- Behind the first item, each turn reads what comes between and one more item. -/
theorem Run.readsTurns (run : Run writes parts values text)
    (each : ReadsEach item between writes parts follow agrees values) (ends : follow rest)
    (stops : Scanner.Refuses (do between; item) rest) {gap : List Char} (parted : parts gap) :
    Scanner.ReadsTurns (do
      match ← Scanner.optional (do between; item) with
      | some value => return Scanner.Turn.more value
      | none => return .stop) (gap ++ text) rest (List.Forall₂ agrees values) := by
  induction run generalizing gap with
  | @one value text here =>
      obtain ⟨nonempty, _, reads⟩ := each.parted value List.mem_cons_self gap text rest parted here
      have read := each.reads value List.mem_cons_self text rest here ends
      have turns := Scanner.ReadsTurns.moreOf (by rw [List.length_append]; omega)
        (reads.bind fun _ _ => read).moreTurn (.stopOf agrees stops.stopTurn)
      rw [List.append_nil] at turns
      exact turns
  | @more value values text gap' rest' here parted' later step =>
      obtain ⟨nonempty, _, reads⟩ := each.parted value List.mem_cons_self gap text
        (gap' ++ rest' ++ rest) parted here
      have more := step each.tail parted'
      have read := each.reads value List.mem_cons_self text (gap' ++ rest' ++ rest) here
        (each.tail.follows later parted' rest)
      have turns := Scanner.ReadsTurns.moreOf (by rw [List.length_append]; omega)
        (reads.bind fun _ _ => read).moreTurn more
      rw [List.append_assoc] at turns
      exact turns

/-- A run of items is read one after the other. -/
theorem Run.reads_separated (run : Run writes parts values text)
    (each : ReadsEach item between writes parts follow agrees values) (ends : follow rest)
    (stops : Scanner.Refuses (do between; item) rest) :
    (Scanner.separated item between).Reads text rest (List.Forall₂ agrees values) := by
  cases run with
  | @one value text here =>
      have read := each.reads value List.mem_cons_self text rest here ends
      have others := (Scanner.ReadsTurns.stopOf agrees stops.stopTurn).repeated
      have whole := read.bind fun first same =>
        others.bind_pure (f := (first :: ·)) fun _ agree => List.Forall₂.cons same agree
      rw [List.append_nil] at whole
      exact whole
  | @more value values text gap' rest' here parted' later =>
      have read := each.reads value List.mem_cons_self text (gap' ++ rest' ++ rest) here
        (each.tail.follows later parted' rest)
      have others := (later.readsTurns each.tail ends stops parted').repeated
      exact read.bind fun first same => others.bind_pure fun _ agree => .cons same agree

end Separated

/-! ### Names, paths and quoted texts -/

section Names

variable {name : String} {path : QualifiedPath} {content : String} {text rest : List Char}

/-- Nothing follows that could belong to a name or a path. -/
def Apart (rest : List Char) : Prop :=
  Ahead (fun c => isNamePart c = false ∧ c ≠ '.') rest

theorem IsName.starts (isName : IsName name) : Starts (isNameStart · = true) name.toList := by
  obtain ⟨first, others, same, start, _⟩ := isName
  exact ⟨first, others, same, start⟩

theorem reads_identifier (isName : IsName name) (apart : Ahead (isNamePart · = false) rest) :
    identifier.Reads name.toList rest fun found => found.value = name := by
  obtain ⟨first, others, same, start, parts⟩ := isName
  have whole : String.ofList (first :: others) = name := by
    rw [← same, String.ofList_toList]
  rw [same]
  have read : Scanner.Reads (do
      let first ← Scanner.one isNameStart
      let others ← Scanner.run isNamePart
      return String.ofList (first :: others)) (first :: others) rest (· = name) := by
    refine (Scanner.reads_one start).bind fun c found => (Scanner.reads_run parts apart).bind_pure ?_
    rintro _ rfl
    rw [found, whole]
  exact read.located

theorem refuses_identifier (others : Ahead (isNameStart · = false) rest) :
    identifier.Refuses rest :=
  (Scanner.refuses_one others).bind.located

theorem PathText.starts (written : PathText path text) : Starts (isNameStart · = true) text := by
  refine Run.starts written ?_
  rintro name _ ⟨isName, rfl⟩
  exact isName.starts

theorem isNamePart_of_isNameStart {c : Char} (start : isNameStart c = true) :
    isNamePart c = true := by
  simp only [isNameStart, isNamePart, Char.isAlphanum, Bool.or_eq_true] at start ⊢
  tauto

theorem reads_qualifiedName (written : PathText path text) (apart : Apart rest) :
    qualifiedName.Reads text rest fun found => found.value = path := by
  have each : ReadsEach identifier (Scanner.exactly '.')
      (fun name text => IsName name ∧ text = name.toList) (· = ['.']) (Ahead (isNamePart · = false))
      (fun name found => found.value = name) path.segments := by
    constructor
    · rintro name _ _ rest ⟨isName, rfl⟩ apart
      exact reads_identifier isName apart
    · rintro name _ _ _ rest rfl ⟨isName, rfl⟩
      exact ⟨Nat.zero_lt_one, .cons (by decide), Scanner.reads_exactly '.' _⟩
  have stops : Scanner.Refuses (do Scanner.exactly '.'; identifier) rest :=
    (Scanner.refuses_exactly (apart.mono fun _ held => held.2)).bind
  have read := Run.reads_separated written each (apart.mono fun _ held => held.1) stops
  have values : ∀ {segments : List String} {names : List (Spanned String)},
      List.Forall₂ (fun name found => found.value = name) segments names →
        names.map Spanned.value = segments := by
    intro segments names agree
    induction agree with
    | nil => rfl
    | cons same _ step => rw [List.map_cons, same, step]
  have whole : Scanner.Reads (do
      let names ← Scanner.separated identifier (Scanner.exactly '.')
      return (⟨names.map Spanned.value⟩ : QualifiedPath)) text rest (· = path) :=
    read.bind_pure fun names agree => by rw [values agree]
  exact whole.located

theorem refuses_qualifiedName (others : Ahead (isNameStart · = false) rest) :
    qualifiedName.Refuses rest :=
  (refuses_identifier others).bind.bind.located

/-- What stands between two quotes is read up to the second one. -/
theorem reads_quotedRest {mark : Char} (unquoted : mark ∉ content.toList)
    (line : '\n' ∉ content.toList) (opened : Nat) :
    (quotedRest opened mark).Reads (content.toList ++ [mark]) rest (· = content) := by
  have kept : ∀ c ∈ content.toList, (c != mark && c != '\n') = true := by
    intro c held
    rw [Bool.and_eq_true, bne_iff_ne, bne_iff_ne]
    exact ⟨fun same => unquoted (same ▸ held), fun same => line (same ▸ held)⟩
  have stops : Ahead (fun c => (c != mark && c != '\n') = false) (mark :: rest) :=
    .cons (by simp)
  intro offset
  have taken := Scanner.takeWhile_kept kept stops offset
  obtain ⟨_, _, closes⟩ := Scanner.reads_exactly mark rest (offset + byteLength content.toList)
  refine ⟨content, rfl, ?_⟩
  rw [List.singleton_append] at closes
  rw [List.append_assoc, List.singleton_append, quotedRest, taken]
  dsimp only
  rw [closes, String.ofList_toList, byteLength_append, Nat.add_assoc]

theorem reads_quoted (written : QuotedText content text) :
    quoted.Reads text rest fun found => found.value = content := by
  obtain @⟨mark, quote, unquoted, line⟩ := written
  have isMark : (mark == '"' || mark == '\'') = true := by
    simpa using quote
  have read (opened : Nat) : Scanner.Reads (do
      let mark ← Scanner.one fun c => c == '"' || c == '\''
      quotedRest opened mark) (mark :: (content.toList ++ [mark])) rest (· = content) :=
    (Scanner.reads_one isMark).bind fun _ same => same ▸ reads_quotedRest unquoted line opened
  intro offset
  exact (read offset).located offset

theorem refuses_quoted (others : Ahead (fun c => c ≠ '"' ∧ c ≠ '\'') rest) :
    quoted.Refuses rest := by
  have noMark : Ahead (fun c => (c == '"' || c == '\'') = false) rest :=
    others.mono fun c held => by simpa using held
  intro offset
  exact (Scanner.refuses_one noMark).bind.located offset

end Names

end RecipeGraph.Parser
