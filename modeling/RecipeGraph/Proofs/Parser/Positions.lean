/-
# Reading keeps positions

Every span is taken from two places that reading has passed, the one behind the other, and such
places are boundaries of the text by construction. So the positions of everything that is read are
faithful as soon as every part is read in between the two ends of what it is a part of.

The judgement that says so speaks about any span around the stretch that was read. The parts of a
sequence then stand in the span around the sequence without being moved, and what is read in a
sequence is known to whoever comes later in it. For lists the span may be cut between two items,
which is how it follows that one item ends before the next begins.
-/

import RecipeGraph.Proofs.Parser.Accounted
import RecipeGraph.Proofs.Parser.Faithful

namespace RecipeGraph

theorem Diagnostic.within_pointing {source : String} {span : Span} (within : span.Within source)
    (severity : Severity) (code : ErrorCode) (message remark : String) :
    (pointing severity code message span remark).Within source := by
  intro label held
  obtain rfl := List.mem_singleton.1 held
  exact within

theorem Diagnostic.Within.withHelp {source : String} {diagnostic : Diagnostic}
    (within : diagnostic.Within source) (help : String) :
    (diagnostic.withHelp help).Within source :=
  within

namespace Parser

variable {α β : Type} {source : String} {outer : Span}

/-! ### Places in a text -/

namespace Cursor

variable {cursor start middle stop : Cursor} {least : Nat}

theorem Advances.offset_le (advances : start.Advances least stop) : start.offset ≤ stop.offset := by
  obtain ⟨taken, _, _, same⟩ := advances
  omega

/-- A place that reading the text may come to. -/
def Reached (source : String) (cursor : Cursor) : Prop :=
  (ofText source).Advances 0 cursor

theorem reached_ofText (source : String) : Reached source (ofText source) :=
  .refl _

theorem Reached.on (reached : Reached source start) (advances : start.Advances least stop) :
    Reached source stop :=
  (reached.trans advances).mono (Nat.zero_le _)

/-- No place lies behind the text. -/
theorem Reached.offset_le (reached : Reached source cursor) :
    cursor.offset ≤ source.utf8ByteSize := by
  obtain ⟨taken, _, same, offset⟩ := reached
  have whole : source.utf8ByteSize = byteLength taken + byteLength cursor.rest := by
    rw [← byteLength_toList, ← byteLength_append]
    exact congrArg byteLength same
  have start : (ofText source).offset = 0 := rfl
  omega

theorem spanTo_eq (advances : start.Advances least stop) :
    start.spanTo stop = ⟨start.offset, stop.offset⟩ :=
  Span.between_of_le advances.offset_le

/-- The text holds between two places what was read from the one to the other. -/
theorem Reached.shows (reached : Reached source start) {text : String}
    (passed : start.Reaches text.toList stop) : (start.spanTo stop).Shows source text := by
  obtain ⟨before, _, same, offset⟩ := reached
  rw [spanTo_eq ⟨_, Nat.zero_le _, passed⟩]
  refine ⟨String.ofList before, String.ofList stop.rest, ?_, ?_, ?_⟩
  · rw [passed.1] at same
    rw [← String.toList_inj, String.toList_append, String.toList_append, String.toList_ofList,
      String.toList_ofList, List.append_assoc, ← same]
    rfl
  · rw [offset, ← byteLength_toList, String.toList_ofList]
    exact Nat.zero_add _
  · rw [passed.2, offset, ← byteLength_toList, String.toList_append, String.toList_ofList,
      byteLength_append]
    exact congrArg (· + _) (Nat.zero_add _)

theorem Reached.within (reached : Reached source start) (advances : start.Advances least stop) :
    (start.spanTo stop).Within source := by
  obtain ⟨taken, _, passed⟩ := advances
  rw [← String.toList_ofList (l := taken)] at passed
  exact (reached.shows passed).within

end Cursor

open Cursor

/-- The report on a string that is not closed points at what was read of it. -/
theorem within_unterminatedString {cursor stop : Cursor} {opened least : Nat}
    (reached : Reached source cursor)
    (halted : (Scan.halted opened stop : Scan α).Advances least cursor) :
    (unterminatedString opened stop).Within source := by
  obtain ⟨place, before, behind, rfl, _⟩ := halted
  exact (Diagnostic.within_pointing ((reached.on before).within behind) _ _ _ _).withHelp _

theorem within_unexpectedToken {start stop : Cursor} {least : Nat} (reached : Reached source start)
    (advances : start.Advances least stop) : (unexpectedToken (start.spanTo stop)).Within source :=
  (Diagnostic.within_pointing (reached.within advances) _ _ _ _).withHelp _

/-! ### Scanners -/

/-- What is read anywhere in the text, inside the given span, has a property. -/
structure Scanner.Fits (source : String) (outer : Span) (good : α → Prop) (item : Scanner α) :
    Prop where
  advances : item.Advances 0
  good : ∀ ⦃cursor stop : Cursor⦄ ⦃value : α⦄, Reached source cursor →
    item cursor = .done value stop → outer.start ≤ cursor.offset → stop.offset ≤ outer.stop →
      good value

/-- What stands in a span of its own has a property there, and just as well in the wider span. -/
structure Fitting (source : String) (outer : Span) (good : Span → α → Prop) (item : Spanned α) :
    Prop where
  inside : item.span.Inside outer
  within : item.span.Within source
  own : good item.span item.value
  wider : good outer item.value

namespace Scanner

section Rules

variable {first second item : Scanner α} {next : α → Scanner β} {good holds : α → Prop}

/-- Of what holds no span, nothing needs to be known. -/
theorem Advances.fits {least : Nat} (advances : item.Advances least) :
    item.Fits source outer fun _ => True :=
  ⟨advances.mono (Nat.zero_le _), fun _ _ _ _ _ _ _ => trivial⟩

theorem Fits.pure {value : α} (held : good value) :
    Fits source outer good (Pure.pure value : Scanner α) := by
  refine ⟨advances_pure value, fun cursor stop read _ same _ _ => ?_⟩
  cases same
  exact held

/-- What is known of the first part may be used for the whole. It is a hypothesis of the property
and not of the second part, which has to move on whatever was read before. -/
theorem Fits.bind {better : β → Prop} (one : first.Fits source outer holds)
    (two : ∀ value, (next value).Fits source outer fun result => holds value → better result) :
    Fits source outer better (first >>= next) := by
  refine ⟨one.advances.bind fun value => (two value).advances, ?_⟩
  intro cursor stop value reached read low high
  obtain ⟨before, middle, here, later⟩ := bind_done read
  have passed := one.advances.of_done here
  have rest := (two before).advances.of_done later
  have held : holds before := one.good reached here low (Nat.le_trans rest.offset_le high)
  exact (two before).good (reached.on passed) later (Nat.le_trans low passed.offset_le) high held

theorem Fits.mono (fits : item.Fits source outer holds) (more : ∀ value, holds value → good value) :
    item.Fits source outer good :=
  ⟨fits.advances, fun _ _ _ reached read low high => more _ (fits.good reached read low high)⟩

theorem Fits.map {f : α → β} {better : β → Prop} (fits : item.Fits source outer holds)
    (more : ∀ value, holds value → better (f value)) : Fits source outer better (f <$> item) :=
  fits.bind fun value => .pure (more value)

theorem Fits.orTry (one : first.Fits source outer good) (two : second.Fits source outer good) :
    (orTry first second).Fits source outer good := by
  refine ⟨one.advances.orTry two.advances, fun cursor stop value reached read low high => ?_⟩
  rw [Scanner.orTry] at read
  split at read
  · exact two.good reached read low high
  · exact one.good reached read low high

theorem Fits.optional (fits : item.Fits source outer good) :
    (optional item).Fits source outer fun found => ∀ value ∈ found, good value := by
  refine ⟨fits.advances.optional, fun cursor stop found reached read low high => ?_⟩
  rcases optional_done read with ⟨one, rfl, here⟩ | ⟨rfl, rfl⟩
  · intro value held
    obtain rfl := Option.some.inj held
    exact fits.good reached here low high
  · exact nofun

theorem Fits.located {good : Span → α → Prop} (fits : ∀ span, item.Fits source span (good span)) :
    (located item).Fits source outer (Fitting source outer good) := by
  have advances := (fits outer).advances
  refine ⟨advances.located, fun cursor stop found reached read low high => ?_⟩
  obtain ⟨here, span⟩ := located_done read
  have passed := advances.of_done here
  have own := (fits ⟨cursor.offset, stop.offset⟩).good reached here (Nat.le_refl _) (Nat.le_refl _)
  have wider := (fits outer).good reached here low high
  have within := reached.within passed
  rw [← span] at within
  rw [spanTo_eq passed] at span
  refine ⟨?_, within, ?_, wider⟩
  · rw [span]
    exact ⟨low, high⟩
  · rw [span]
    exact own

/-- A part of which nothing needs to be known may come first. -/
theorem Fits.after {least : Nat} {better : β → Prop} (one : first.Advances least)
    (two : ∀ value, (next value).Fits source outer better) :
    Fits source outer better (first >>= next) :=
  one.fits.bind fun value => (two value).mono fun _ held _ => held

end Rules

/-! ### Repetitions -/

/-- The items of one turn, of which there is one at most. -/
def Turn.items : Turn α → List α
  | .stop => []
  | .last item => [item]
  | .more item => [item]

section Repetitions

variable {turn : Scanner (Turn α)} {item : Scanner α} {good : α → Prop} {cursor stop : Cursor}

/-- Whoever has taken turns has taken one, and has stopped there or has taken the others behind. -/
theorem turns_done {bound : Nat} {items : List α}
    (read : turns turn (bound + 1) cursor = .done items stop) :
    ∃ taken middle, turn cursor = .done taken middle ∧
      (items = taken.items ∧ stop = middle ∨
        ∃ rest, turns turn bound middle = .done rest stop ∧ items = taken.items ++ rest) := by
  rw [turns_succ_apply] at read
  cases same : turn cursor with
  | refused =>
      rw [same] at read
      cases read
  | halted opened place =>
      rw [same] at read
      cases read
  | done taken middle =>
      rw [same] at read
      refine ⟨taken, middle, rfl, ?_⟩
      cases taken with
      | stop =>
          cases read
          exact .inl ⟨rfl, rfl⟩
      | last item =>
          cases read
          exact .inl ⟨rfl, rfl⟩
      | more item =>
          dsimp only at read
          cases later : turns turn bound middle with
          | done rest place =>
              rw [later] at read
              cases read
              exact .inr ⟨rest, rfl, rfl⟩
          | refused =>
              rw [later] at read
              cases read
          | halted opened place =>
              rw [later] at read
              cases read

/-- What the items of a repetition have in common. -/
theorem Fits.turns (fits : turn.Fits source outer fun taken => ∀ item ∈ taken.items, good item)
    (bound : Nat) :
    (turns turn bound).Fits source outer fun items => ∀ item ∈ items, good item := by
  refine ⟨advances_turns fits.advances bound, ?_⟩
  induction bound with
  | zero => exact fun _ _ _ _ read => nomatch read
  | succ bound step =>
      intro cursor stop items reached read low high
      obtain ⟨taken, middle, here, ⟨rfl, rfl⟩ | ⟨rest, later, rfl⟩⟩ := turns_done read
      · exact fits.good reached here low high
      have passed := fits.advances.of_done here
      have rest := (advances_turns fits.advances bound).of_done later
      intro item held
      rcases List.mem_append.1 held with first | other
      · exact fits.good reached here low (Nat.le_trans rest.offset_le high) item first
      · exact step (reached.on passed) later (Nat.le_trans low passed.offset_le) high item other

/-- Items that keep to any span around them come one behind the other: cut in between two turns, the
span still holds the items on either side. -/
theorem Fits.turns_ordered {place : α → Span} {good : Span → α → Prop}
    (inside : ∀ outer item, good outer item → (place item).Inside outer)
    (fits : ∀ outer, turn.Fits source outer fun taken => ∀ item ∈ taken.items, good outer item)
    (bound : Nat) :
    (Scanner.turns turn bound).Fits source outer fun items =>
      items.Pairwise fun one other => (place one).Before (place other) := by
  have advances := (fits outer).advances
  refine ⟨advances_turns advances bound, ?_⟩
  induction bound with
  | zero => exact fun _ _ _ _ read => nomatch read
  | succ bound step =>
      have single : ∀ taken : Turn α, taken.items.Pairwise fun one other =>
          (place one).Before (place other) := by
        intro taken
        cases taken <;> simp [Turn.items]
      intro cursor stop items reached read low high
      obtain ⟨taken, middle, here, ⟨rfl, rfl⟩ | ⟨rest, later, rfl⟩⟩ := turns_done read
      · exact single taken
      have passed := advances.of_done here
      have behind := reached.on passed
      have others := step behind later (Nat.le_trans low passed.offset_le) high
      refine List.pairwise_append.2 ⟨single taken, others, fun one first other last => ?_⟩
      have before := (fits ⟨outer.start, middle.offset⟩).good reached here low (Nat.le_refl _) one first
      have after := ((fits ⟨middle.offset, outer.stop⟩).turns bound).good behind later (Nat.le_refl _)
        high other last
      exact Nat.le_trans (inside _ _ before).2 (inside _ _ after).1

theorem Fits.repeated (fits : turn.Fits source outer fun taken => ∀ item ∈ taken.items, good item) :
    (repeated turn).Fits source outer fun items => ∀ item ∈ items, good item :=
  ⟨fits.advances.repeated, fun _ _ _ reached read => (fits.turns _).good reached read⟩

theorem Fits.repeated_ordered {place : α → Span} {good : Span → α → Prop}
    (inside : ∀ outer item, good outer item → (place item).Inside outer)
    (fits : ∀ outer, turn.Fits source outer fun taken => ∀ item ∈ taken.items, good outer item) :
    (Scanner.repeated turn).Fits source outer fun items =>
      (∀ item ∈ items, good outer item) ∧
        items.Pairwise fun one other => (place one).Before (place other) :=
  ⟨(fits outer).advances.repeated, fun _ _ _ reached read low high =>
    ⟨((fits outer).turns _).good reached read low high,
      (turns_ordered inside fits _).good reached read low high⟩⟩

/-- A turn that reads an item if there is one. -/
theorem Fits.itemTurn (fits : item.Fits source outer good) :
    Fits source outer (fun taken => ∀ item ∈ taken.items, good item) (do
      match ← Scanner.optional item with
      | some value => return Turn.more value
      | none => return .stop) := by
  refine fits.optional.bind fun found => ?_
  cases found with
  | none => exact .pure nofun
  | some value => exact .pure fun held => by simpa [Turn.items] using held value rfl

theorem Fits.separated {between : Scanner Unit} {least : Nat} (fits : item.Fits source outer good)
    (parted : between.Advances least) :
    (separated item between).Fits source outer fun items => ∀ item ∈ items, good item := by
  have others : (many do between; item).Fits source outer fun items => ∀ item ∈ items, good item :=
    (Fits.after parted fun _ => fits).itemTurn.repeated
  exact fits.bind fun first => others.bind fun rest => .pure fun held here =>
    List.forall_mem_cons.2 ⟨here, held⟩

theorem Fits.separatedItems (fits : item.Fits source outer good) :
    (separatedItems item).Fits source outer fun items => ∀ item ∈ items, good item :=
  Fits.repeated (.after (advances_gap isSeparator) fun _ => fits.itemTurn)

/-- A repetition passes over its items and nothing else, if every turn does. -/
theorem turns_reaches {text : α → List Char}
    (one : ∀ {cursor stop taken}, turn cursor = .done taken stop →
      cursor.Reaches (taken.items.flatMap text) stop)
    {bound : Nat} {items : List α} (read : turns turn bound cursor = .done items stop) :
    cursor.Reaches (items.flatMap text) stop := by
  induction bound generalizing cursor items with
  | zero => cases read
  | succ bound step =>
      obtain ⟨taken, middle, here, ⟨rfl, rfl⟩ | ⟨rest, later, rfl⟩⟩ := turns_done read
      · exact one here
      · rw [List.flatMap_append]
        exact (one here).trans (step later)

theorem many_reaches {text : α → List Char}
    (one : ∀ {cursor stop value}, item cursor = .done value stop → cursor.Reaches (text value) stop)
    {items : List α} (read : many item cursor = .done items stop) :
    cursor.Reaches (items.flatMap text) stop := by
  refine turns_reaches (fun {cursor stop taken} here => ?_) read
  obtain ⟨found, middle, first, last⟩ := bind_done here
  rcases optional_done first with ⟨value, rfl, held⟩ | ⟨rfl, rfl⟩
  · cases last
    simpa [Turn.items] using one held
  · cases last
    exact .refl _

end Repetitions

end Scanner

/-! ### Words -/

/-- What was read as a word stands as that word in the text. -/
theorem stands_of_done {item : Scanner α} {cursor stop : Cursor} {found : Spanned α} {text : String}
    (reached : Reached source cursor) (read : Scanner.located item cursor = .done found stop)
    (passed : cursor.Reaches text.toList stop) (low : outer.start ≤ cursor.offset)
    (high : stop.offset ≤ outer.stop) : found.Stands source outer text := by
  have span := (Scanner.located_done read).2
  have shows := reached.shows passed
  rw [← span] at shows
  rw [spanTo_eq ⟨_, Nat.zero_le _, passed⟩] at span
  refine ⟨?_, shows⟩
  rw [span]
  exact ⟨low, high⟩

theorem fits_identifier :
    identifier.Fits source outer fun name => name.Stands source outer name.value :=
  ⟨Scanner.advances_identifier.mono (Nat.zero_le _), fun _ _ _ reached read =>
    stands_of_done reached read (identifier_done read)⟩

theorem toList_joinSegments (first : String) (others : List String) :
    (QualifiedPath.joinSegments (first :: others)).toList =
      first.toList ++ others.flatMap fun other => '.' :: other.toList := by
  induction others generalizing first with
  | nil => simp [QualifiedPath.joinSegments]
  | cons second rest step =>
      simp [QualifiedPath.joinSegments, step, QualifiedPath.separator]

/-- A path is read as it is written when its segments are joined. -/
theorem qualifiedName_done {cursor stop : Cursor} {path : Spanned QualifiedPath}
    (read : qualifiedName cursor = .done path stop) :
    cursor.Reaches path.value.joined.toList stop := by
  obtain ⟨names, middle, names_read, last⟩ := Scanner.bind_done (Scanner.located_done read).1
  obtain ⟨first, behind, one, rest⟩ := Scanner.bind_done names_read
  obtain ⟨others, place, many, ended⟩ := Scanner.bind_done rest
  cases ended
  injection last with same stopped
  have dotted : ∀ {cursor stop name}, (do Scanner.exactly '.'; identifier : Scanner _) cursor =
      .done name stop → cursor.Reaches ('.' :: name.value.toList) stop := by
    intro cursor stop name read
    obtain ⟨_, middle, dot, word⟩ := Scanner.bind_done read
    exact (Scanner.exactly_done dot).trans (identifier_done word)
  rw [← same, ← stopped, QualifiedPath.joined, List.map_cons, toList_joinSegments,
    List.flatMap_map]
  exact (identifier_done one).trans (Scanner.many_reaches dotted many)

theorem fits_qualifiedName :
    qualifiedName.Fits source outer fun path => path.Stands source outer path.value.joined :=
  ⟨Scanner.advances_qualifiedName.mono (Nat.zero_le _), fun _ _ _ reached read =>
    stands_of_done reached read (qualifiedName_done read)⟩

/-- Characters up to a quote or the end of the line, and the two quotes around them. -/
theorem quotedText_ofList {mark : Char} {content : List Char} (quote : mark = '"' ∨ mark = '\'')
    (kept : ∀ c ∈ content, c ≠ mark ∧ c ≠ '\n') :
    QuotedText (String.ofList content) (mark :: (content ++ [mark])) := by
  have written : QuotedText (String.ofList content)
      (mark :: ((String.ofList content).toList ++ [mark])) := by
    refine .intro quote (fun held => ?_) (fun held => ?_)
    · exact (kept mark (by simpa using held)).1 rfl
    · exact (kept '\n' (by simpa using held)).2 rfl
  rwa [String.toList_ofList] at written

/-- A quoted text is read with its quotes. -/
theorem quoted_done {cursor stop : Cursor} {found : Spanned String}
    (read : quoted cursor = .done found stop) :
    ∃ text : String, QuotedText found.value text.toList ∧ cursor.Reaches text.toList stop := by
  obtain ⟨mark, middle, first, rest⟩ := Scanner.bind_done (Scanner.located_done read).1
  obtain ⟨accepted, opened⟩ := Scanner.one_done first
  have taken := middle.takeWhile_reaches fun c => c != mark && c != '\n'
  have kept : ∀ c ∈ (middle.takeWhile fun c => c != mark && c != '\n').1, c ≠ mark ∧ c ≠ '\n' :=
    fun c held => by simpa using List.all_eq_true.1 List.all_takeWhile c held
  rw [quotedRest] at rest
  generalize middle.takeWhile (fun c => c != mark && c != '\n') = pair at rest taken kept
  obtain ⟨content, place⟩ := pair
  dsimp only at rest
  split at rest
  · next behind closed =>
      injection rest with same stopped
      refine ⟨String.ofList (mark :: (content ++ [mark])), ?_, ?_⟩
      · rw [← same, String.toList_ofList]
        exact quotedText_ofList (by simpa using accepted) kept
      · rw [String.toList_ofList, ← stopped]
        exact opened.trans (taken.trans (Scanner.exactly_done closed))
  · cases rest

/-- Where no location is written, an empty one stands in the place of it. -/
theorem fits_location :
    (Scanner.located (Scanner.optional quoted)).Fits source outer fun found =>
      (found.value.getD ⟨"", found.span⟩).FaithfulLocation source outer := by
  refine ⟨Scanner.advances_quoted.optional.located, fun cursor stop found reached read low high => ?_⟩
  rcases Scanner.optional_done (Scanner.located_done read).1 with ⟨location, same, here⟩ | ⟨same, rfl⟩
  · obtain ⟨text, written, passed⟩ := quoted_done here
    rw [same]
    exact .inr ⟨text, written, stands_of_done reached here passed low high⟩
  · have nothing : found.Stands source outer "" :=
      stands_of_done reached read (.refl stop) low high
    rw [same]
    exact .inl ⟨rfl, nothing.inside, nothing.shows⟩

theorem fits_leadingName (blank : Char → Bool) :
    (leadingName (Cursor.skipGap blank)).Fits source outer fun name =>
      ∀ word ∈ name, word.Stands source outer word.value :=
  Scanner.Fits.optional (fits_identifier.bind fun _ => .after (Scanner.advances_gap blank) fun _ =>
    .pure fun stands => stands)

/-! ### Styles -/

theorem fits_tagReference :
    tagReference.Fits source outer fun path => path.Stands source outer path.value.joined :=
  .after (Scanner.advances_exactly '#') fun _ => fits_qualifiedName

theorem fits_styleItem :
    styleItem.Fits source outer fun item => ∀ path, item = .tag path →
      path.Stands source outer path.value.joined := by
  refine (fits_tagReference.map fun path stands other same => ?_).orTry <|
    (Scanner.advances_quoted.fits.map fun line _ other same => nomatch same).orTry <|
      Scanner.advances_property.fits.map fun entry _ other same => nomatch same
  rwa [← StyleItem.tag.inj same]

theorem fits_styleBlock : styleBlock.Fits source outer (StyleBlock.Faithful source outer) :=
  .after (Scanner.advances_exactly _) fun _ => fits_styleItem.separatedItems.bind fun _ =>
    .after (Scanner.advances_closing _) fun _ => .pure fun stand _ held =>
      stand _ (mem_tagsOf held) _ rfl

theorem fits_trailingStyle :
    trailingStyle.Fits source outer fun style => ∀ block ∈ style, block.Faithful source outer :=
  Scanner.Fits.optional (.after (Scanner.advances_gap _) fun _ => fits_styleBlock)

/-! ### Calls -/

section Calls

variable {item : Scanner Argument}

theorem fits_argumentTurn (fits : item.Fits source outer (Argument.Faithful source outer)) :
    (argumentTurn item).Fits source outer fun taken =>
      ∀ item ∈ taken.items, item.Faithful source outer := by
  refine .after (Scanner.advances_gap _) fun _ => fits.optional.bind fun found => ?_
  cases found with
  | none => exact .pure nofun
  | some value =>
      refine .after (Scanner.advances_gap _) fun _ =>
        .after (Scanner.advances_exactly ',').optional fun comma => ?_
      cases comma with
      | none => exact .pure fun held => by simpa [Scanner.Turn.items] using held value rfl
      | some _ => exact .pure fun held => by simpa [Scanner.Turn.items] using held value rfl

theorem fits_argumentList
    (fits : ∀ outer, item.Fits source outer (Argument.Faithful source outer)) :
    (argumentList item).Fits source outer (Argument.listFaithful source outer) := by
  have ordered : (Scanner.repeated (argumentTurn item)).Fits source outer fun arguments =>
      (∀ argument ∈ arguments, argument.Faithful source outer) ∧
        arguments.Pairwise fun one other => one.span.Before other.span :=
    .repeated_ordered (fun _ _ => Argument.Faithful.inside) fun outer => fits_argumentTurn (fits outer)
  exact .after (Scanner.advances_exactly '(') fun _ => ordered.bind fun _ =>
    .after (Scanner.advances_gap _) fun _ => .after (Scanner.advances_closing ')') fun _ =>
      .pure Argument.listFaithful_iff.2

theorem fits_callWith
    (fits : ∀ outer, item.Fits source outer (Argument.Faithful source outer)) :
    (callWith item).Fits source outer (Fitting source outer (Call.Faithful source)) :=
  .located fun _ => fits_identifier.bind fun _ => .after (Scanner.advances_gap _) fun _ =>
    (fits_argumentList fits).bind fun _ => fits_trailingStyle.bind fun _ =>
      .pure fun styled passed named => ⟨named, passed, styled⟩

theorem fits_argumentWithin (depth : Nat) (outer : Span) :
    Scanner.Fits source outer (Argument.Faithful source outer) fun cursor =>
      argumentWithin depth cursor := by
  induction depth generalizing outer with
  | zero => exact ⟨fun _ => trivial, fun _ _ _ _ read => nomatch read⟩
  | succ depth step =>
      have call : Scanner.Fits source outer (Argument.Faithful source outer)
          (Argument.call <$> callWith fun cursor => argumentWithin depth cursor) :=
        (fits_callWith step).map fun _ fitting => ⟨fitting.inside, fitting.within, fitting.own⟩
      exact call.orTry (fits_qualifiedName.map fun _ stands => stands)

theorem fits_argument : Scanner.Fits source outer (Argument.Faithful source outer) argument :=
  ⟨Scanner.advances_argument.mono (Nat.zero_le _), fun _ _ _ reached read =>
    (fits_argumentWithin _ outer).good reached read⟩

theorem fits_call : call.Fits source outer (Fitting source outer (Call.Faithful source)) :=
  fits_callWith fun _ => fits_argument

end Calls

end Parser

end RecipeGraph
