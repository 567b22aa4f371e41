/-
# Scanners

A scanner tries to read something at a place. It may be done, and then says what it has read and
where it stopped. It may refuse, and then nothing has happened: whoever asked still stands where it
stood and may try something else. Or it is halted inside a string that is never closed; that is not
undone, and reading can only go on behind the place where it stopped.

Scanners that may come upon whole statements also hand over diagnostics. What they have found stays
found even when they refuse, because the findings concern the text and not the attempt. Their
outcome is a `Reply`: the findings, and a scan.
-/

import RecipeGraph.Diagnostic
import RecipeGraph.Parser.Cursor

namespace RecipeGraph.Parser

/-- The outcome of trying to read something. -/
inductive Scan (α : Type) where
  /-- It was read, up to a place. -/
  | done (value : α) (stop : Cursor)
  /-- It is not there. -/
  | refused
  /-- A string opened at byte `opened` is not closed; reading got as far as `stop`. -/
  | halted (opened : Nat) (stop : Cursor)
deriving Repr

/-- Tries to read something at a place. -/
def Scanner (α : Type) : Type := Cursor → Scan α

namespace Scanner

variable {α β : Type}

/-- Reads one thing and then another, where the first is not undone if the second is halted. -/
def andThen (first : Scanner α) (next : α → Scanner β) : Scanner β := fun cursor =>
  match first cursor with
  | .done value stop => next value stop
  | .refused => .refused
  | .halted opened stop => .halted opened stop

instance : Monad Scanner where
  pure value := fun cursor => .done value cursor
  bind := andThen

theorem bind_apply (first : Scanner α) (next : α → Scanner β) (cursor : Cursor) :
    (first >>= next) cursor =
      match first cursor with
      | .done value stop => next value stop
      | .refused => .refused
      | .halted opened stop => .halted opened stop := rfl

/-- Reads nothing, anywhere. -/
def refuse : Scanner α := fun _ => .refused

/-- Tries one scanner, and where it refuses another. -/
def orTry (first second : Scanner α) : Scanner α := fun cursor =>
  match first cursor with
  | .refused => second cursor
  | other => other

/-- Reads something if it is there. -/
def optional (item : Scanner α) : Scanner (Option α) := fun cursor =>
  match item cursor with
  | .done value stop => .done (some value) stop
  | .refused => .done none cursor
  | .halted opened stop => .halted opened stop

/-- Reads something and keeps the span of what was read. -/
def located (item : Scanner α) : Scanner (Spanned α) := fun cursor =>
  match item cursor with
  | .done value stop => .done ⟨value, cursor.spanTo stop⟩ stop
  | .refused => .refused
  | .halted opened stop => .halted opened stop

/-- Moves on without reading anything. -/
def moveBy (move : Cursor → Cursor) : Scanner Unit := fun cursor =>
  .done () (move cursor)

/-- Reads one character with a property. -/
def one (accept : Char → Bool) : Scanner Char
  | ⟨c :: rest, offset⟩ => if accept c then .done c ⟨rest, offset + c.utf8Size⟩ else .refused
  | ⟨[], _⟩ => .refused

/-- Reads one given character. -/
def exactly (expected : Char) : Scanner Unit := do
  let _ ← one (· == expected)

/-- Reads the longest run of characters with a property; the run may be empty. -/
def run (keep : Char → Bool) : Scanner (List Char) := fun cursor =>
  let (taken, stop) := cursor.takeWhile keep
  .done taken stop

/-- Reads a closing character, which may be missing at the end of the text. -/
def closing (delimiter : Char) : Scanner Unit := fun cursor =>
  if cursor.atEnd then .done () cursor else exactly delimiter cursor

/-- What one turn of a repetition has read. -/
inductive Turn (α : Type) where
  /-- Nothing more, and the repetition ends. -/
  | stop
  /-- One more item, the last one. -/
  | last (item : α)
  /-- One more item, after which others may come. -/
  | more (item : α)

/-- Takes at most `bound` turns and gathers their items. -/
def turns (turn : Scanner (Turn α)) : (bound : Nat) → Scanner (List α)
  | 0 => refuse
  | bound + 1 => fun cursor =>
    match turn cursor with
    | .done .stop stop => .done [] stop
    | .done (.last item) stop => .done [item] stop
    | .done (.more item) stop =>
      match turns turn bound stop with
      | .done items stop => .done (item :: items) stop
      | .refused => .refused
      | .halted opened stop => .halted opened stop
    | .refused => .refused
    | .halted opened stop => .halted opened stop

/-- Takes turns until one of them ends the repetition. Every turn that asks for another one reads
at least one character, so one turn more than there are characters is always enough. -/
def repeated (turn : Scanner (Turn α)) : Scanner (List α) := fun cursor =>
  turns turn (cursor.rest.length + 1) cursor

/-- Reads items for as long as there are any. -/
def many (item : Scanner α) : Scanner (List α) :=
  repeated do
    match ← optional item with
    | some value => return .more value
    | none => return .stop

/-- Reads one item or more with something between neighbours. What comes between is left alone
where no item follows it. -/
def separated (item : Scanner α) (between : Scanner Unit) : Scanner (List α) := do
  let first ← item
  let others ← many do
    between
    item
  return first :: others

end Scanner

/-- The findings of an attempt, and its outcome. -/
structure Reply (α : Type) where
  findings : List Diagnostic
  outcome : Scan α

/-- Tries to read something at a place, and hands over what is found on the way. -/
def Reader (α : Type) : Type := Cursor → Reply α

namespace Reader

variable {α β : Type}

/-- A scanner that finds nothing. -/
def ofScanner (item : Scanner α) : Reader α := fun cursor =>
  ⟨[], item cursor⟩

instance : MonadLift Scanner Reader := ⟨ofScanner⟩

/-- Reads one thing and then another; the findings of both count, in their order. -/
def andThen (first : Reader α) (next : α → Reader β) : Reader β := fun cursor =>
  match first cursor with
  | ⟨found, .done value stop⟩ =>
    let reply := next value stop
    ⟨found ++ reply.findings, reply.outcome⟩
  | ⟨found, .refused⟩ => ⟨found, .refused⟩
  | ⟨found, .halted opened stop⟩ => ⟨found, .halted opened stop⟩

instance : Monad Reader where
  pure value := fun cursor => ⟨[], .done value cursor⟩
  bind := andThen

/-- Reads nothing, anywhere. -/
def refuse : Reader α := ofScanner Scanner.refuse

/-- Tries one reader, and where it refuses another. The findings of both attempts count. -/
def orTry (first second : Reader α) : Reader α := fun cursor =>
  match first cursor with
  | ⟨found, .refused⟩ =>
    let reply := second cursor
    ⟨found ++ reply.findings, reply.outcome⟩
  | reply => reply

/-- Reads something if it is there. What was found on the way counts even if it is not. -/
def optional (item : Reader α) : Reader (Option α) := fun cursor =>
  match item cursor with
  | ⟨found, .done value stop⟩ => ⟨found, .done (some value) stop⟩
  | ⟨found, .refused⟩ => ⟨found, .done none cursor⟩
  | ⟨found, .halted opened stop⟩ => ⟨found, .halted opened stop⟩

/-- Reads something and keeps the span of what was read. -/
def located (item : Reader α) : Reader (Spanned α) := fun cursor =>
  match item cursor with
  | ⟨found, .done value stop⟩ => ⟨found, .done ⟨value, cursor.spanTo stop⟩ stop⟩
  | ⟨found, .refused⟩ => ⟨found, .refused⟩
  | ⟨found, .halted opened stop⟩ => ⟨found, .halted opened stop⟩

end Reader

end RecipeGraph.Parser
