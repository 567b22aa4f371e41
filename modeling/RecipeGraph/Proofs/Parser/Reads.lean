/-
# Reading a given text

That a scanner reads a text depends on what follows the text, since a scanner may look ahead and may
take more than it should. Both facts that sequences and choices are made of are therefore stated for
a text together with what follows: that the scanner reads the text and stops behind it with a value
of a given kind, and that it refuses. Neither depends on how much was read before.
-/

import RecipeGraph.Parser.StyleBlock
import RecipeGraph.Proofs.Parser.Filling

namespace RecipeGraph.Parser

variable {α β : Type}

/-- In front of what follows, the scanner reads a text and stops behind it. -/
def Scanner.Reads (item : Scanner α) (text rest : List Char) (good : α → Prop) : Prop :=
  ∀ offset, ∃ value, good value ∧
    item ⟨text ++ rest, offset⟩ = .done value ⟨rest, offset + byteLength text⟩

/-- The scanner does not find what it reads. -/
def Scanner.Refuses (item : Scanner α) (rest : List Char) : Prop :=
  ∀ offset, item ⟨rest, offset⟩ = .refused

namespace Scanner

section Reads

variable {text text' rest : List Char} {good : α → Prop} {good' : β → Prop}

theorem Reads.mono {item : Scanner α} {wider : α → Prop} (reads : item.Reads text rest good)
    (more : ∀ value, good value → wider value) : item.Reads text rest wider := by
  intro offset
  obtain ⟨value, held, same⟩ := reads offset
  exact ⟨value, more value held, same⟩

theorem reads_pure {value : α} (held : good value) :
    Scanner.Reads (pure value : Scanner α) [] rest good :=
  fun _ => ⟨value, held, rfl⟩

/-- One text is read after the other. -/
theorem Reads.bind {first : Scanner α} {next : α → Scanner β}
    (one : first.Reads text (text' ++ rest) good)
    (two : ∀ value, good value → (next value).Reads text' rest good') :
    Scanner.Reads (first >>= next) (text ++ text') rest good' := by
  intro offset
  obtain ⟨value, held, same⟩ := one offset
  obtain ⟨value', held', same'⟩ := two value held (offset + byteLength text)
  refine ⟨value', held', ?_⟩
  rw [List.append_assoc, bind_apply, same, byteLength_append, ← Nat.add_assoc]
  exact same'

/-- A part that reads nothing may come last. -/
theorem Reads.bind_nil {first : Scanner α} {next : α → Scanner β} (one : first.Reads text rest good)
    (two : ∀ value, good value → (next value).Reads [] rest good') :
    Scanner.Reads (first >>= next) text rest good' := by
  have both : Scanner.Reads (first >>= next) (text ++ []) rest good' := one.bind two
  rwa [List.append_nil] at both

theorem Reads.bind_pure {first : Scanner α} {f : α → β} (one : first.Reads text rest good)
    (held : ∀ value, good value → good' (f value)) :
    Scanner.Reads (first >>= fun value => pure (f value)) text rest good' :=
  one.bind_nil fun value here => reads_pure (held value here)

theorem Reads.map {item : Scanner α} {f : α → β} (reads : item.Reads text rest good)
    (held : ∀ value, good value → good' (f value)) :
    Scanner.Reads (f <$> item) text rest good' :=
  reads.bind_pure held

theorem Refuses.bind {first : Scanner α} {next : α → Scanner β} (refuses : first.Refuses rest) :
    Scanner.Refuses (first >>= next) rest := by
  intro offset
  rw [bind_apply, refuses offset]

theorem Refuses.map {item : Scanner α} {f : α → β} (refuses : item.Refuses rest) :
    Scanner.Refuses (f <$> item) rest :=
  refuses.bind

/-- A sequence refuses as soon as one of its parts does. -/
theorem Reads.bind_refuses {first : Scanner α} {next : α → Scanner β}
    (one : first.Reads text rest good) (two : ∀ value, good value → (next value).Refuses rest) :
    Scanner.Refuses (first >>= next) (text ++ rest) := by
  intro offset
  obtain ⟨value, held, same⟩ := one offset
  rw [bind_apply, same]
  exact two value held _

theorem Reads.orTry {first : Scanner α} (second : Scanner α) (reads : first.Reads text rest good) :
    (Scanner.orTry first second).Reads text rest good := by
  intro offset
  obtain ⟨value, held, same⟩ := reads offset
  exact ⟨value, held, by rw [Scanner.orTry, same]⟩

theorem Refuses.orTry {first second : Scanner α} (refuses : first.Refuses (text ++ rest))
    (reads : second.Reads text rest good) : (Scanner.orTry first second).Reads text rest good := by
  intro offset
  obtain ⟨value, held, same⟩ := reads offset
  exact ⟨value, held, by rw [Scanner.orTry, refuses offset]; exact same⟩

theorem Refuses.orTry_refuses {first second : Scanner α} (one : first.Refuses rest)
    (two : second.Refuses rest) : (Scanner.orTry first second).Refuses rest := by
  intro offset
  rw [Scanner.orTry, one offset]
  exact two offset

theorem Reads.optional {item : Scanner α} (reads : item.Reads text rest good) :
    (Scanner.optional item).Reads text rest fun found => ∃ value, found = some value ∧ good value := by
  intro offset
  obtain ⟨value, held, same⟩ := reads offset
  exact ⟨some value, ⟨value, rfl, held⟩, by rw [Scanner.optional, same]⟩

theorem Refuses.optional {item : Scanner α} (refuses : item.Refuses rest) :
    (Scanner.optional item).Reads [] rest (· = none) := by
  intro offset
  refine ⟨none, rfl, ?_⟩
  rw [Scanner.optional, List.nil_append, refuses offset]
  rfl

theorem Reads.located {item : Scanner α} (reads : item.Reads text rest good) :
    (Scanner.located item).Reads text rest fun found => good found.value := by
  intro offset
  obtain ⟨value, held, same⟩ := reads offset
  exact ⟨_, held, by rw [Scanner.located, same]⟩

theorem Refuses.located {item : Scanner α} (refuses : item.Refuses rest) :
    (Scanner.located item).Refuses rest := by
  intro offset
  rw [Scanner.located, refuses offset]

end Reads

/-! ### Single characters and runs -/

section Characters

variable {text rest : List Char} {accept : Char → Bool} {c : Char}

theorem reads_one (held : accept c = true) : (one accept).Reads [c] rest (· = c) :=
  fun _ => ⟨c, rfl, if_pos held⟩

theorem refuses_one (others : Ahead (accept · = false) rest) : (one accept).Refuses rest := by
  cases rest with
  | nil => exact fun _ => rfl
  | cons c rest => exact fun _ => if_neg (Bool.eq_false_iff.1 (others c rfl))

theorem reads_exactly (c : Char) (rest : List Char) : (exactly c).Reads [c] rest fun _ => True :=
  (reads_one (beq_self_eq_true c)).bind_pure fun _ _ => trivial

theorem refuses_exactly (others : Ahead (· ≠ c) rest) : (exactly c).Refuses rest :=
  (refuses_one fun first held => beq_false_of_ne (others first held)).bind

/-- Taking characters stops behind a text that is all kept, if nothing that follows is. -/
theorem takeWhile_kept {keep : Char → Bool} (kept : ∀ c ∈ text, keep c = true)
    (others : Ahead (keep · = false) rest) (offset : Nat) :
    Cursor.takeWhile keep ⟨text ++ rest, offset⟩ = (text, ⟨rest, offset + byteLength text⟩) := by
  have taken : (text ++ rest).takeWhile keep = text := by
    rw [List.takeWhile_append_of_pos kept]
    cases rest with
    | nil => simp
    | cons c rest => simp [others c rfl]
  have left : (text ++ rest).dropWhile keep = rest := by
    rw [List.dropWhile_append_of_pos kept]
    cases rest with
    | nil => rfl
    | cons c rest => simp [others c rfl]
  rw [Cursor.takeWhile, taken, left]

/-- A run takes the whole text if all of it is kept and nothing that follows is. -/
theorem reads_run {keep : Char → Bool} (kept : ∀ c ∈ text, keep c = true)
    (others : Ahead (keep · = false) rest) : (run keep).Reads text rest (· = text) := by
  intro offset
  refine ⟨text, rfl, ?_⟩
  simp only [run, takeWhile_kept kept others offset]

theorem reads_closing (c : Char) (rest : List Char) : (closing c).Reads [c] rest fun _ => True := by
  intro offset
  obtain ⟨value, held, same⟩ := reads_exactly c rest offset
  exact ⟨value, held, same⟩

end Characters

/-! ### Gaps -/

section Gaps

variable {blank : Char → Bool} {gap rest : List Char}

theorem reads_gap (slash : blank '/' = false) (filling : Filling blank gap)
    (solid : Solid blank rest) :
    (moveBy (Cursor.skipGap blank)).Reads gap rest fun _ => True := by
  intro offset
  refine ⟨(), trivial, ?_⟩
  have stopped : skipGapFrom blank rest (offset + byteLength gap) = ⟨rest, offset + byteLength gap⟩ := by
    cases rest with
    | nil => rfl
    | cons c rest => exact skipGapFrom_solid (solid c rfl).1 (solid c rfl).2
  simp only [moveBy, Cursor.skipGap, filling.skip slash, stopped]

/-- Behind a gap, a scanner refuses that reads only what does not come next. -/
theorem refuses_behind_gap {next : Scanner α} {accept : Char → Prop} (comes : Next accept rest)
    (refuses : ∀ rest : List Char, Ahead accept rest → next.Refuses rest) :
    Scanner.Refuses (do moveBy (Cursor.skipGap isInlineBlank); next) rest := by
  intro offset
  exact refuses _ (comes offset) _

end Gaps

/-! ### Repetitions -/

section Turns

variable {turn : Scanner (Turn α)} {text text' rest : List Char} {good : α → Prop}
  {others : List α → Prop}

theorem turns_succ_apply (bound : Nat) (cursor : Cursor) :
    turns turn (bound + 1) cursor =
      match turn cursor with
      | .done .stop stop => .done [] stop
      | .done (.last item) stop => .done [item] stop
      | .done (.more item) stop =>
        match turns turn bound stop with
        | .done items stop => .done (item :: items) stop
        | .refused => .refused
        | .halted opened stop => .halted opened stop
      | .refused => .refused
      | .halted opened stop => .halted opened stop := rfl

/-- A turn that asks for more is followed by the other turns. -/
theorem turns_more {cursor stop : Cursor} {item : α} (read : turn cursor = .done (.more item) stop)
    (bound : Nat) :
    turns turn (bound + 1) cursor =
      match turns turn bound stop with
      | .done items stop => .done (item :: items) stop
      | .refused => .refused
      | .halted opened stop => .halted opened stop := by
  rw [turns_succ_apply, read]

/-- With more turns than the text has characters, the turns read the text. -/
def ReadsTurns (turn : Scanner (Turn α)) (text rest : List Char) (good : List α → Prop) : Prop :=
  ∀ bound, text.length < bound → (turns turn bound).Reads text rest good

theorem ReadsTurns.mono {good wider : List α → Prop} (reads : ReadsTurns turn text rest good)
    (more : ∀ items, good items → wider items) : ReadsTurns turn text rest wider :=
  fun bound enough => (reads bound enough).mono more

theorem ReadsTurns.stop (reads : turn.Reads text rest (· = .stop)) :
    ReadsTurns turn text rest (· = []) := by
  intro bound enough offset
  obtain ⟨_, rfl, same⟩ := reads offset
  cases bound with
  | zero => exact absurd enough (Nat.not_lt_zero _)
  | succ bound => exact ⟨[], rfl, by rw [turns_succ_apply, same]⟩

theorem ReadsTurns.last
    (reads : turn.Reads text rest fun found => ∃ item, found = .last item ∧ good item) :
    ReadsTurns turn text rest fun items => ∃ item, items = [item] ∧ good item := by
  intro bound enough offset
  obtain ⟨_, ⟨item, rfl, held⟩, same⟩ := reads offset
  cases bound with
  | zero => exact absurd enough (Nat.not_lt_zero _)
  | succ bound => exact ⟨[item], ⟨item, rfl, held⟩, by rw [turns_succ_apply, same]⟩

/-- A turn that asks for more, and the turns after it. -/
theorem ReadsTurns.more (nonempty : 0 < text.length)
    (reads : turn.Reads text (text' ++ rest) fun found => ∃ item, found = .more item ∧ good item)
    (later : ReadsTurns turn text' rest others) :
    ReadsTurns turn (text ++ text') rest fun items =>
      ∃ item more, items = item :: more ∧ good item ∧ others more := by
  intro bound enough offset
  rw [List.length_append] at enough
  obtain ⟨_, ⟨item, rfl, held⟩, same⟩ := reads offset
  cases bound with
  | zero => exact absurd enough (Nat.not_lt_zero _)
  | succ bound =>
      obtain ⟨more, held', same'⟩ := later bound (by omega) (offset + byteLength text)
      refine ⟨item :: more, ⟨item, more, rfl, held, held'⟩, ?_⟩
      rw [List.append_assoc, turns_succ_apply, same, byteLength_append, ← Nat.add_assoc]
      dsimp only
      rw [same']

theorem ReadsTurns.repeated {good : List α → Prop} (reads : ReadsTurns turn text rest good) :
    (repeated turn).Reads text rest good := by
  intro offset
  refine reads _ ?_ offset
  rw [List.length_append]
  omega

end Turns

/-- Turns that read one more item and then others read a list that agrees with theirs. -/
theorem ReadsTurns.moreOf {turn : Scanner (Turn α)} {text text' rest : List Char}
    {agrees : β → α → Prop} {value : β} {values : List β} (nonempty : 0 < text.length)
    (reads : turn.Reads text (text' ++ rest) fun found =>
      ∃ item, found = .more item ∧ agrees value item)
    (later : ReadsTurns turn text' rest (List.Forall₂ agrees values)) :
    ReadsTurns turn (text ++ text') rest (List.Forall₂ agrees (value :: values)) := by
  refine (ReadsTurns.more nonempty reads later).mono ?_
  rintro _ ⟨item, more, rfl, here, others⟩
  exact .cons here others

/-- Turns that stop at once read the empty list. -/
theorem ReadsTurns.stopOf {turn : Scanner (Turn α)} {text rest : List Char} (agrees : β → α → Prop)
    (reads : turn.Reads text rest (· = .stop)) :
    ReadsTurns turn text rest (List.Forall₂ agrees []) :=
  (ReadsTurns.stop reads).mono fun _ same => same ▸ .nil

/-- A turn that reads one more item. -/
theorem Reads.moreTurn {item : Scanner α} {text rest : List Char} {good : α → Prop}
    (reads : item.Reads text rest good) :
    Scanner.Reads (do
      match ← Scanner.optional item with
      | some value => return Turn.more value
      | none => return .stop) text rest fun found => ∃ value, found = .more value ∧ good value := by
  intro offset
  obtain ⟨value, held, same⟩ := reads offset
  refine ⟨.more value, ⟨value, rfl, held⟩, ?_⟩
  rw [bind_apply, Scanner.optional, same]
  rfl

/-- A turn that finds no more items. -/
theorem Refuses.stopTurn {item : Scanner α} {rest : List Char} (refuses : item.Refuses rest) :
    Scanner.Reads (do
      match ← Scanner.optional item with
      | some value => return Turn.more value
      | none => return .stop) [] rest (· = .stop) := by
  intro offset
  refine ⟨.stop, rfl, ?_⟩
  rw [bind_apply, Scanner.optional, List.nil_append, refuses offset]
  rfl

end Scanner

/-! ### Readers -/

/-- In front of what follows, the reader reads a text, stops behind it and finds nothing amiss. -/
def Reader.Reads (item : Reader α) (text rest : List Char) (good : α → Prop) : Prop :=
  ∀ offset, ∃ value, good value ∧
    item ⟨text ++ rest, offset⟩ = ⟨[], .done value ⟨rest, offset + byteLength text⟩⟩

/-- The reader does not find what it reads, and nothing else either. -/
def Reader.Refuses (item : Reader α) (rest : List Char) : Prop :=
  ∀ offset, item ⟨rest, offset⟩ = ⟨[], .refused⟩

theorem Scanner.Reads.lift {item : Scanner α} {text rest : List Char} {good : α → Prop}
    (reads : item.Reads text rest good) : (Reader.ofScanner item).Reads text rest good := by
  intro offset
  obtain ⟨value, held, same⟩ := reads offset
  exact ⟨value, held, by rw [Reader.ofScanner, same]⟩

theorem Scanner.Refuses.lift {item : Scanner α} {rest : List Char} (refuses : item.Refuses rest) :
    (Reader.ofScanner item).Refuses rest := by
  intro offset
  rw [Reader.ofScanner, refuses offset]

namespace Reader

variable {text text' rest : List Char} {good : α → Prop} {good' : β → Prop}

theorem bind_apply (first : Reader α) (next : α → Reader β) (cursor : Cursor) :
    (first >>= next) cursor =
      match first cursor with
      | ⟨found, .done value stop⟩ =>
        ⟨found ++ (next value stop).findings, (next value stop).outcome⟩
      | ⟨found, .refused⟩ => ⟨found, .refused⟩
      | ⟨found, .halted opened stop⟩ => ⟨found, .halted opened stop⟩ := rfl

theorem reads_pure {value : α} (held : good value) :
    Reader.Reads (pure value : Reader α) [] rest good :=
  fun _ => ⟨value, held, rfl⟩

/-- One text is read after the other. -/
theorem Reads.bind {first : Reader α} {next : α → Reader β}
    (one : first.Reads text (text' ++ rest) good)
    (two : ∀ value, good value → (next value).Reads text' rest good') :
    Reader.Reads (first >>= next) (text ++ text') rest good' := by
  intro offset
  obtain ⟨value, held, same⟩ := one offset
  obtain ⟨value', held', same'⟩ := two value held (offset + byteLength text)
  refine ⟨value', held', ?_⟩
  rw [List.append_assoc, bind_apply, same, byteLength_append, ← Nat.add_assoc]
  dsimp only
  rw [same']
  rfl

theorem Reads.bind_nil {first : Reader α} {next : α → Reader β} (one : first.Reads text rest good)
    (two : ∀ value, good value → (next value).Reads [] rest good') :
    Reader.Reads (first >>= next) text rest good' := by
  have both : Reader.Reads (first >>= next) (text ++ []) rest good' := one.bind two
  rwa [List.append_nil] at both

theorem Reads.map {item : Reader α} {f : α → β} (reads : item.Reads text rest good)
    (held : ∀ value, good value → good' (f value)) :
    Reader.Reads (f <$> item) text rest good' :=
  reads.bind_nil fun value here => reads_pure (held value here)

theorem Refuses.bind {first : Reader α} {next : α → Reader β} (refuses : first.Refuses rest) :
    Reader.Refuses (first >>= next) rest := by
  intro offset
  rw [bind_apply, refuses offset]

theorem Refuses.map {item : Reader α} {f : α → β} (refuses : item.Refuses rest) :
    Reader.Refuses (f <$> item) rest :=
  refuses.bind

theorem Reads.bind_refuses {first : Reader α} {next : α → Reader β}
    (one : first.Reads text rest good) (two : ∀ value, good value → (next value).Refuses rest) :
    Reader.Refuses (first >>= next) (text ++ rest) := by
  intro offset
  obtain ⟨value, held, same⟩ := one offset
  rw [bind_apply, same]
  dsimp only
  rw [two value held]
  rfl

theorem Reads.orTry {first : Reader α} (second : Reader α) (reads : first.Reads text rest good) :
    (Reader.orTry first second).Reads text rest good := by
  intro offset
  obtain ⟨value, held, same⟩ := reads offset
  exact ⟨value, held, by rw [Reader.orTry, same]⟩

theorem Refuses.orTry {first second : Reader α} (refuses : first.Refuses (text ++ rest))
    (reads : second.Reads text rest good) : (Reader.orTry first second).Reads text rest good := by
  intro offset
  obtain ⟨value, held, same⟩ := reads offset
  refine ⟨value, held, ?_⟩
  rw [Reader.orTry, refuses offset]
  dsimp only
  rw [same]
  rfl

theorem Refuses.orTry_refuses {first second : Reader α} (one : first.Refuses rest)
    (two : second.Refuses rest) : (Reader.orTry first second).Refuses rest := by
  intro offset
  rw [Reader.orTry, one offset]
  dsimp only
  rw [two offset]
  rfl

theorem Reads.optional {item : Reader α} (reads : item.Reads text rest good) :
    (Reader.optional item).Reads text rest fun found => ∃ value, found = some value ∧ good value := by
  intro offset
  obtain ⟨value, held, same⟩ := reads offset
  exact ⟨some value, ⟨value, rfl, held⟩, by rw [Reader.optional, same]⟩

theorem Refuses.optional {item : Reader α} (refuses : item.Refuses rest) :
    (Reader.optional item).Reads [] rest (· = none) := by
  intro offset
  refine ⟨none, rfl, ?_⟩
  rw [Reader.optional, List.nil_append, refuses offset]
  rfl

theorem Reads.located {item : Reader α} (reads : item.Reads text rest good) :
    (Reader.located item).Reads text rest fun found => good found.value := by
  intro offset
  obtain ⟨value, held, same⟩ := reads offset
  exact ⟨_, held, by rw [Reader.located, same]⟩

theorem Refuses.located {item : Reader α} (refuses : item.Refuses rest) :
    (Reader.located item).Refuses rest := by
  intro offset
  rw [Reader.located, refuses offset]

end Reader

end RecipeGraph.Parser
