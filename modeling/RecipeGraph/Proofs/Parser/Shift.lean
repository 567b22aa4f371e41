/-
# Scanners do the same further on

No scanner looks at how many bytes it has passed, except to say where something stands. So what it
reads so many bytes further on is what it reads here, moved by as many bytes. Sequences carry values
from one part to the next; they are therefore compared part by part, each with its own counterpart.
-/

import RecipeGraph.Proofs.Parser.Moved
import RecipeGraph.Proofs.Parser.Reads

namespace RecipeGraph.Parser

variable {α β : Type} [Placed α] [Placed β] {bytes : Nat}

/-- The same place in a text that stands so many bytes further on. -/
def Cursor.moved (bytes : Nat) (cursor : Cursor) : Cursor :=
  ⟨cursor.rest, cursor.offset + bytes⟩

/-- The same outcome further on. -/
def Scan.moved (bytes : Nat) : Scan α → Scan α
  | .done value stop => .done (Placed.moved bytes value) (stop.moved bytes)
  | .refused => .refused
  | .halted opened stop => .halted (opened + bytes) (stop.moved bytes)

instance : Placed (Scanner.Turn α) where
  moved bytes
    | .stop => .stop
    | .last item => .last (Placed.moved bytes item)
    | .more item => .more (Placed.moved bytes item)

instance : Placed StyleItem where
  moved bytes
    | .tag path => .tag (Placed.moved bytes path)
    | .entry entry => .entry entry

/-! ### Cursors -/

namespace Cursor

theorem spanTo_moved (start stop : Cursor) :
    (start.moved bytes).spanTo (stop.moved bytes) = (start.spanTo stop).moved bytes :=
  Span.between_moved bytes start.offset stop.offset

theorem takeWhile_moved (keep : Char → Bool) (cursor : Cursor) :
    (cursor.moved bytes).takeWhile keep =
      ((cursor.takeWhile keep).1, (cursor.takeWhile keep).2.moved bytes) := by
  simp only [takeWhile, moved, Nat.add_right_comm]

/-- Gaps are skipped alike. -/
theorem skipGap_moved (blank : Char → Bool) (cursor : Cursor) :
    (cursor.moved bytes).skipGap blank = (cursor.skipGap blank).moved bytes := by
  obtain ⟨rest, offset⟩ := cursor
  show skipGapFrom blank rest (offset + bytes) = (skipGapFrom blank rest offset).moved bytes
  induction rest, offset using skipGapFrom.induct blank
    (motive_2 := fun rest offset => skipBlockComment blank rest (offset + bytes) =
      (skipBlockComment blank rest offset).moved bytes)
    (motive_3 := fun rest offset => skipLineComment blank rest (offset + bytes) =
      (skipLineComment blank rest offset).moved bytes) with
  | case1 rest offset step =>
      rw [skipGapFrom.eq_1, skipGapFrom.eq_1, Nat.add_right_comm, step]
  | case2 rest offset step =>
      rw [skipGapFrom.eq_2, skipGapFrom.eq_2, Nat.add_right_comm, step]
  | case3 c rest offset noLine noBlock held step =>
      rw [skipGapFrom.eq_3 _ _ _ _ noLine noBlock, skipGapFrom.eq_3 _ _ _ _ noLine noBlock,
        if_pos held, if_pos held, Nat.add_right_comm, step]
  | case4 c rest offset noLine noBlock solid =>
      rw [skipGapFrom.eq_3 _ _ _ _ noLine noBlock, skipGapFrom.eq_3 _ _ _ _ noLine noBlock,
        if_neg solid, if_neg solid]
      rfl
  | case5 offset => rfl
  | case6 offset => rfl
  | case7 rest offset step =>
      rw [skipBlockComment, skipBlockComment, Nat.add_right_comm, step]
  | case8 c rest offset unclosed step =>
      rw [skipBlockComment.eq_3 _ _ _ _ unclosed, skipBlockComment.eq_3 _ _ _ _ unclosed,
        Nat.add_right_comm, step]
  | case9 offset => rfl
  | case10 rest offset held step =>
      rw [skipLineComment, skipLineComment, if_pos held, if_pos held, Nat.add_right_comm, step]
  | case11 rest offset solid =>
      rw [skipLineComment, skipLineComment, if_neg solid, if_neg solid]
      rfl
  | case12 c rest offset other step =>
      rw [skipLineComment.eq_3 _ _ _ _ other, skipLineComment.eq_3 _ _ _ _ other,
        Nat.add_right_comm, step]

end Cursor

/-- The second scanner reads further on what the first one reads here. -/
def Scanner.Follows (bytes : Nat) (second first : Scanner α) : Prop :=
  ∀ cursor : Cursor, second (cursor.moved bytes) = (first cursor).moved bytes

namespace Scanner

section Follows

variable {first first' second second' item item' : Scanner α} {next next' : α → Scanner β}

theorem follows_pure (value : α) :
    Follows bytes (pure (Placed.moved bytes value)) (pure value) :=
  fun _ => rfl

theorem Follows.bind (one : Follows bytes first' first)
    (two : ∀ value, Follows bytes (next' (Placed.moved bytes value)) (next value)) :
    Follows bytes (first' >>= next') (first >>= next) := by
  intro cursor
  rw [bind_apply, bind_apply, one cursor]
  cases first cursor with
  | done value stop => exact two value stop
  | refused => rfl
  | halted opened stop => rfl

theorem Follows.map (one : Follows bytes item' item) {f f' : α → β}
    (same : ∀ value, f' (Placed.moved bytes value) = Placed.moved bytes (f value)) :
    Follows bytes (f' <$> item') (f <$> item) := by
  refine one.bind fun value => ?_
  show Follows bytes (pure (f' (Placed.moved bytes value))) (pure (f value))
  rw [same]
  exact follows_pure _

theorem Follows.orTry (one : Follows bytes first' first) (two : Follows bytes second' second) :
    Follows bytes (orTry first' second') (orTry first second) := by
  intro cursor
  rw [Scanner.orTry, Scanner.orTry, one cursor]
  cases first cursor with
  | done value stop => rfl
  | refused => exact two cursor
  | halted opened stop => rfl

theorem Follows.optional (one : Follows bytes item' item) :
    Follows bytes (optional item') (optional item) := by
  intro cursor
  rw [Scanner.optional, Scanner.optional, one cursor]
  cases item cursor with
  | done value stop => rfl
  | refused => rfl
  | halted opened stop => rfl

theorem Follows.located (one : Follows bytes item' item) :
    Follows bytes (located item') (located item) := by
  intro cursor
  rw [Scanner.located, Scanner.located, one cursor]
  cases item cursor with
  | done value stop =>
      dsimp only [Scan.moved]
      rw [Cursor.spanTo_moved]
      rfl
  | refused => rfl
  | halted opened stop => rfl

theorem follows_gap (blank : Char → Bool) :
    Follows bytes (moveBy (Cursor.skipGap blank)) (moveBy (Cursor.skipGap blank)) := by
  intro cursor
  rw [moveBy, Cursor.skipGap_moved]
  rfl

theorem follows_one (accept : Char → Bool) : Follows bytes (one accept) (one accept) := by
  rintro ⟨rest, offset⟩
  cases rest with
  | nil => rfl
  | cons c rest =>
      by_cases held : accept c = true
      · rw [Cursor.moved, one, one, if_pos held, if_pos held, Nat.add_right_comm]
        rfl
      · rw [Cursor.moved, one, one, if_neg held, if_neg held]
        rfl

theorem follows_exactly (c : Char) : Follows bytes (exactly c) (exactly c) :=
  (follows_one (· == c)).bind fun _ => follows_pure ()

/-- Characters stand nowhere. -/
theorem moved_chars (text : List Char) : Placed.moved bytes text = text :=
  List.map_id' text

theorem follows_run (keep : Char → Bool) : Follows bytes (run keep) (run keep) := by
  intro cursor
  rw [run, run, Cursor.takeWhile_moved]
  dsimp only [Scan.moved]
  rw [moved_chars]

theorem follows_closing (c : Char) : Follows bytes (closing c) (closing c) := by
  intro cursor
  rw [closing, closing]
  have same : (cursor.moved bytes).atEnd = cursor.atEnd := rfl
  rw [same]
  split
  · rfl
  · exact follows_exactly c cursor

theorem follows_turns {turn turn' : Scanner (Turn α)} (one : Follows bytes turn' turn)
    (bound : Nat) : Follows bytes (turns turn' bound) (turns turn bound) := by
  induction bound with
  | zero => exact fun _ => rfl
  | succ bound step =>
      intro cursor
      have moved := one cursor
      cases read : turn cursor with
      | refused =>
          rw [turns_succ_apply, turns_succ_apply, moved, read]
          rfl
      | halted opened stop =>
          rw [turns_succ_apply, turns_succ_apply, moved, read]
          rfl
      | done value stop =>
          rw [read] at moved
          cases value with
          | stop =>
              rw [turns_succ_apply, turns_succ_apply, moved, read]
              rfl
          | last item =>
              rw [turns_succ_apply, turns_succ_apply, moved, read]
              rfl
          | more item =>
              rw [turns_more read, turns_more moved, step stop]
              cases turns turn bound stop with
              | done items stop' => rfl
              | refused => rfl
              | halted opened stop' => rfl

theorem Follows.repeated {turn turn' : Scanner (Turn α)} (one : Follows bytes turn' turn) :
    Follows bytes (repeated turn') (repeated turn) :=
  fun cursor => follows_turns one _ cursor

/-- A turn that reads an item if there is one. -/
theorem Follows.itemTurn (one : Follows bytes item' item) : Follows bytes
    (do
      match ← Scanner.optional item' with
      | some value => return Turn.more value
      | none => return .stop)
    (do
      match ← Scanner.optional item with
      | some value => return Turn.more value
      | none => return .stop) := by
  refine one.optional.bind fun found => ?_
  cases found with
  | some value => exact follows_pure (Turn.more value)
  | none => exact follows_pure Turn.stop

theorem Follows.separated {between : Scanner Unit} (one : Follows bytes item' item)
    (parted : Follows bytes between between) :
    Follows bytes (separated item' between) (separated item between) := by
  have others : Follows bytes (many do between; item') (many do between; item) :=
    (parted.bind fun _ => one).itemTurn.repeated
  exact one.bind fun value => others.bind fun values => follows_pure (value :: values)

/-! ### Words and styles -/

theorem follows_identifier : Follows bytes identifier identifier := by
  refine Follows.located ((follows_one isNameStart).bind fun c => ?_)
  refine (follows_run isNamePart).bind fun others => ?_
  rw [moved_chars]
  exact follows_pure (String.ofList (c :: others))

theorem follows_qualifiedName : Follows bytes qualifiedName qualifiedName := by
  refine Follows.located ((follows_identifier.separated (follows_exactly '.')).map fun names => ?_)
  have values : (Placed.moved bytes names).map Spanned.value = names.map Spanned.value :=
    List.map_map
  rw [values]
  rfl

theorem follows_quotedRest (opened : Nat) (mark : Char) :
    Follows bytes (quotedRest (opened + bytes) mark) (quotedRest opened mark) := by
  intro cursor
  simp only [quotedRest, Cursor.takeWhile_moved]
  rw [follows_exactly mark]
  cases exactly mark (cursor.takeWhile fun c => c != mark && c != '\n').2 with
  | done value stop => rfl
  | refused => rfl
  | halted opened stop => rfl

theorem follows_quoted : Follows bytes quoted quoted := by
  refine Follows.located fun cursor => ?_
  exact (follows_one fun c => c == '"' || c == '\'').bind
    (fun mark => follows_quotedRest cursor.offset mark) cursor

theorem follows_leadingName (blank : Char → Bool) :
    Follows bytes (leadingName (Cursor.skipGap blank)) (leadingName (Cursor.skipGap blank)) :=
  (follows_identifier.bind fun name => (follows_gap blank).bind fun _ => follows_pure name).optional

theorem follows_tagReference : Follows bytes tagReference tagReference :=
  (follows_exactly '#').bind fun _ => follows_qualifiedName

theorem follows_property : Follows bytes property property := by
  have value : Follows bytes propertyValue propertyValue := by
    apply Follows.orTry
    · exact follows_quoted.map fun _ => rfl
    · refine (follows_run isValuePart).bind fun text => ?_
      rw [moved_chars]
      exact follows_pure (String.ofList (Text.trim text))
  refine (follows_one isKeyPart).bind fun c => (follows_run isKeyPart).bind fun others => ?_
  rw [moved_chars]
  exact (follows_gap _).bind fun _ => (follows_exactly ':').bind fun _ =>
    (follows_gap _).bind fun _ => value.bind fun value =>
      follows_pure (StyleEntry.property (String.ofList (c :: others)) value)

theorem follows_styleItem : Follows bytes styleItem styleItem := by
  apply Follows.orTry
  · exact follows_tagReference.map fun _ => rfl
  · apply Follows.orTry
    · exact follows_quoted.map fun _ => rfl
    · exact follows_property.map fun _ => rfl

theorem Follows.separatedItems (one : Follows bytes item item) :
    Follows bytes (separatedItems item) (separatedItems item) :=
  Follows.repeated ((follows_gap isSeparator).bind fun _ => one.itemTurn)

theorem tagsOf_moved (items : List StyleItem) :
    tagsOf (Placed.moved bytes items) = Placed.moved bytes (tagsOf items) ∧
      entriesOf (Placed.moved bytes items) = entriesOf items := by
  induction items with
  | nil => exact ⟨rfl, rfl⟩
  | cons item items step =>
      cases item with
      | tag path => exact ⟨congrArg (Placed.moved bytes path :: ·) step.1, step.2⟩
      | entry entry => exact ⟨step.1, congrArg (entry :: ·) step.2⟩

theorem follows_styleBlock : Follows bytes styleBlock styleBlock := by
  refine (follows_exactly _).bind fun _ => follows_styleItem.separatedItems.bind fun items => ?_
  refine (follows_closing _).bind fun _ => ?_
  rw [(tagsOf_moved items).1, (tagsOf_moved items).2]
  exact follows_pure (⟨tagsOf items, entriesOf items⟩ : StyleBlock)

theorem follows_trailingStyle : Follows bytes trailingStyle trailingStyle :=
  ((follows_gap _).bind fun _ => follows_styleBlock).optional

/-! ### Calls -/

theorem Follows.argumentList {argument argument' : Scanner Argument}
    (one : Follows bytes argument' argument) :
    Follows bytes (argumentList argument') (argumentList argument) := by
  have turn : Follows bytes (argumentTurn argument') (argumentTurn argument) := by
    refine (follows_gap _).bind fun _ => one.optional.bind fun found => ?_
    cases found with
    | none => exact follows_pure Turn.stop
    | some value =>
        refine (follows_gap _).bind fun _ => (follows_exactly ',').optional.bind fun found => ?_
        cases found with
        | none => exact follows_pure (Turn.last value)
        | some _ => exact follows_pure (Turn.more value)
  exact (follows_exactly '(').bind fun _ => turn.repeated.bind fun arguments =>
    (follows_gap _).bind fun _ => (follows_closing ')').bind fun _ => follows_pure arguments

theorem Follows.callWith {argument argument' : Scanner Argument}
    (one : Follows bytes argument' argument) :
    Follows bytes (callWith argument') (callWith argument) :=
  Follows.located <| follows_identifier.bind fun name => (follows_gap _).bind fun _ =>
    one.argumentList.bind fun arguments => follows_trailingStyle.bind fun style =>
      follows_pure (⟨name, arguments, style⟩ : Call)

theorem follows_argumentWithin (depth : Nat) : Follows bytes
    (fun cursor => argumentWithin depth cursor) fun cursor => argumentWithin depth cursor := by
  induction depth with
  | zero => exact fun _ => rfl
  | succ depth step =>
      have reference : Follows bytes (Argument.reference <$> qualifiedName)
          (Argument.reference <$> qualifiedName) := follows_qualifiedName.map fun _ => rfl
      exact (step.callWith.map fun made => (Argument.moved_call bytes made).symm).orTry reference

theorem follows_argument : Follows bytes argument argument :=
  fun cursor => follows_argumentWithin cursor.rest.length cursor

theorem follows_call : Follows bytes call call :=
  follows_argument.callWith

/-! ### Parts of statements -/

theorem follows_trailingArguments : Follows bytes trailingArguments trailingArguments := by
  refine ((follows_gap _).bind fun _ => follows_argument.argumentList).optional.bind fun found => ?_
  cases found with
  | none => exact follows_pure []
  | some arguments => exact follows_pure arguments

theorem follows_importClause : Follows bytes importClause importClause := by
  refine Follows.located ((follows_leadingName _).bind fun name => ?_)
  refine (follows_exactly '@').bind fun _ => (follows_gap _).bind fun _ => ?_
  refine follows_quoted.optional.located.bind fun location => ?_
  obtain ⟨location, span⟩ := location
  cases location with
  | none => exact follows_pure (⟨⟨"", span⟩, name⟩ : Import)
  | some location => exact follows_pure (⟨location, name⟩ : Import)

theorem follows_targets : Follows bytes targets targets := by
  have target : Follows bytes target target :=
    follows_identifier.bind fun name => follows_trailingStyle.bind fun style =>
      follows_pure (⟨name, style⟩ : Target)
  have comma : Follows bytes (do inlineGap; Scanner.exactly ','; inlineGap)
      (do inlineGap; Scanner.exactly ','; inlineGap) :=
    (follows_gap _).bind fun _ => (follows_exactly ',').bind fun _ => follows_gap _
  exact target.separated comma

theorem follows_aliasOf (lefts : List Target) :
    Follows bytes (aliasOf (Placed.moved bytes lefts)) (aliasOf lefts) := by
  match lefts with
  | [] => exact fun _ => rfl
  | [left] => exact follows_qualifiedName.map fun _ => rfl
  | _ :: _ :: _ => exact fun _ => rfl

theorem follows_namedStyle : Follows bytes namedStyle namedStyle :=
  (follows_exactly '#').bind fun _ => follows_identifier.bind fun name =>
    (follows_gap _).bind fun _ => follows_styleBlock.bind fun style =>
      follows_pure (Statement.namedStyle name style)

theorem follows_styleBinding : Follows bytes styleBinding styleBinding :=
  (follows_exactly '%').bind fun _ => follows_identifier.bind fun keyword =>
    (follows_gap _).bind fun _ => (follows_exactly _).bind fun _ =>
      follows_tagReference.separatedItems.bind fun tags => (follows_closing _).bind fun _ =>
        follows_pure (Statement.styleBinding keyword tags)

end Follows

end Scanner

end RecipeGraph.Parser
