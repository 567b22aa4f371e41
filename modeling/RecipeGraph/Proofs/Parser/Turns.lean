/-
# Turns over statements

A list of statements is read turn by turn. What a turn does only depends on where the gap in front
of it ends, so it does not matter how much of that gap has been skipped before. What all turns have
in common is proved by induction on `Turns`, which has a constructor for each thing a turn can do.
-/

import RecipeGraph.Parser.Statement
import RecipeGraph.Proofs.Parser.Filling

namespace RecipeGraph.Parser

namespace Reply

variable {α : Type}

/-- The outcome of reading more items when some have been read already. -/
def behind (items : List α) (reply : Reply (List α)) : Reply (List α) :=
  ⟨reply.findings,
    match reply.outcome with
    | .done more stop => .done (items ++ more) stop
    | .refused => .refused
    | .halted opened stop => .halted opened stop⟩

/-- The same outcome with findings made before. -/
def afterFindings (found : List Diagnostic) (reply : Reply α) : Reply α :=
  ⟨found ++ reply.findings, reply.outcome⟩

theorem behind_nil (reply : Reply (List α)) : reply.behind [] = reply := by
  obtain ⟨findings, outcome⟩ := reply
  cases outcome with
  | done more stop => rfl
  | refused => rfl
  | halted opened stop => rfl

theorem behind_behind (items more : List α) (reply : Reply (List α)) :
    (reply.behind more).behind items = reply.behind (items ++ more) := by
  obtain ⟨findings, outcome⟩ := reply
  cases outcome with
  | done others stop =>
      rw [behind, behind, behind]
      dsimp only
      rw [List.append_assoc]
  | refused => rfl
  | halted opened stop => rfl

end Reply

section Turns

variable {statement : Reader Statement} {nested : Bool}

/-- Reads a statement and the end of it. -/
def wholeStatement (statement : Reader Statement) : Reader (Spanned Statement) := do
  let item ← Reader.located statement
  Reader.ofScanner statementEnd
  return item

/-- Whether no statement can begin at a place where a gap has ended. -/
def noMoreStatements (nested : Bool) (start : Cursor) : Bool :=
  start.atEnd || nested && start.rest.head? == some ']'

theorem atEnd_of_more {nested : Bool} {start : Cursor} (more : noMoreStatements nested start = false) :
    start.atEnd = false :=
  (Bool.or_eq_false_iff.1 more).1

variable {cursor start stop : Cursor} {found : List Diagnostic}

/-- One turn: it ends the list, or it goes by what an attempt at a statement comes to. -/
theorem statementTurns_succ (statement : Reader Statement) (nested : Bool) (bound : Nat)
    (cursor : Cursor) :
    statementTurns statement nested (bound + 1) cursor =
      let start := cursor.skipGap isSeparator
      if noMoreStatements nested start then ⟨[], .done [] start⟩
      else
        match wholeStatement statement start with
        | ⟨found, .done item stop⟩ =>
          ((statementTurns statement nested bound stop).behind [item]).afterFindings found
        | ⟨found, .halted opened stop⟩ =>
          (statementTurns statement nested bound (skipRemainder nested stop)).afterFindings
            (found ++ [unterminatedString opened stop])
        | ⟨found, .refused⟩ =>
          let stop := skipStatement nested start
          (statementTurns statement nested bound stop).afterFindings
            (found ++ [unexpectedToken (start.spanTo stop)]) := by
  rw [statementTurns]
  dsimp only
  refine if_congr Iff.rfl rfl ?_
  cases read : wholeStatement statement (cursor.skipGap isSeparator) with
  | mk found scan =>
      rw [wholeStatement] at read
      rw [read]
      cases scan with
      | done item stop =>
          dsimp only [Reply.afterFindings, Reply.behind]
          cases (statementTurns statement nested bound stop).outcome with
          | done items stop => rfl
          | refused => rfl
          | halted opened stop => rfl
      | halted opened stop =>
          dsimp only [Reply.afterFindings]
          rw [List.append_assoc, List.singleton_append]
      | refused =>
          dsimp only [Reply.afterFindings]
          rw [List.append_assoc, List.singleton_append]

/-- The turn that ends the list. -/
theorem statementTurns_stop (same : cursor.skipGap isSeparator = start)
    (ends : noMoreStatements nested start = true) (bound : Nat) :
    statementTurns statement nested (bound + 1) cursor = ⟨[], .done [] start⟩ := by
  rw [statementTurns_succ]
  dsimp only
  rw [same, if_pos ends]

section More

variable (same : cursor.skipGap isSeparator = start) (more : noMoreStatements nested start = false)

include same more

/-- A turn that reads a statement. -/
theorem statementTurns_done {item : Spanned Statement}
    (read : wholeStatement statement start = ⟨found, .done item stop⟩) (bound : Nat) :
    statementTurns statement nested (bound + 1) cursor =
      ((statementTurns statement nested bound stop).behind [item]).afterFindings found := by
  rw [statementTurns_succ]
  dsimp only
  rw [same, if_neg (Bool.eq_false_iff.1 more), read]

/-- A turn that is halted in a string goes on behind the place. -/
theorem statementTurns_halted {opened : Nat}
    (read : wholeStatement statement start = ⟨found, .halted opened stop⟩) (bound : Nat) :
    statementTurns statement nested (bound + 1) cursor =
      (statementTurns statement nested bound (skipRemainder nested stop)).afterFindings
        (found ++ [unterminatedString opened stop]) := by
  rw [statementTurns_succ]
  dsimp only
  rw [same, if_neg (Bool.eq_false_iff.1 more), read]

/-- A turn that understands nothing goes on behind what it skips. -/
theorem statementTurns_refused (read : wholeStatement statement start = ⟨found, .refused⟩)
    (bound : Nat) :
    statementTurns statement nested (bound + 1) cursor =
      (statementTurns statement nested bound (skipStatement nested start)).afterFindings
        (found ++ [unexpectedToken (start.spanTo (skipStatement nested start))]) := by
  rw [statementTurns_succ]
  dsimp only
  rw [same, if_neg (Bool.eq_false_iff.1 more), read]

end More

/-- The turns over a list of statements with a bound on how many there are, and what they come to.
It says what an attempt at a statement came to, and where the next turn begins. -/
inductive Turns (statement : Reader Statement) (nested : Bool) :
    Nat → Cursor → Reply (List (Spanned Statement)) → Prop
  /-- No turn is left. -/
  | spent (cursor : Cursor) : Turns statement nested 0 cursor ⟨[], .refused⟩
  | stop {bound : Nat} {cursor : Cursor}
      (ends : noMoreStatements nested (cursor.skipGap isSeparator) = true) :
      Turns statement nested (bound + 1) cursor ⟨[], .done [] (cursor.skipGap isSeparator)⟩
  | done {bound : Nat} {cursor stop : Cursor} {found : List Diagnostic} {item : Spanned Statement}
      {reply : Reply (List (Spanned Statement))}
      (more : noMoreStatements nested (cursor.skipGap isSeparator) = false)
      (read : wholeStatement statement (cursor.skipGap isSeparator) = ⟨found, .done item stop⟩)
      (later : Turns statement nested bound stop reply) :
      Turns statement nested (bound + 1) cursor ((reply.behind [item]).afterFindings found)
  | halted {bound opened : Nat} {cursor stop : Cursor} {found : List Diagnostic}
      {reply : Reply (List (Spanned Statement))}
      (more : noMoreStatements nested (cursor.skipGap isSeparator) = false)
      (read : wholeStatement statement (cursor.skipGap isSeparator) = ⟨found, .halted opened stop⟩)
      (later : Turns statement nested bound (skipRemainder nested stop) reply) :
      Turns statement nested (bound + 1) cursor
        (reply.afterFindings (found ++ [unterminatedString opened stop]))
  | refused {bound : Nat} {cursor stop : Cursor} {found : List Diagnostic}
      {reply : Reply (List (Spanned Statement))}
      (more : noMoreStatements nested (cursor.skipGap isSeparator) = false)
      (read : wholeStatement statement (cursor.skipGap isSeparator) = ⟨found, .refused⟩)
      (skipped : skipStatement nested (cursor.skipGap isSeparator) = stop)
      (later : Turns statement nested bound stop reply) :
      Turns statement nested (bound + 1) cursor
        (reply.afterFindings (found ++ [unexpectedToken ((cursor.skipGap isSeparator).spanTo stop)]))

/-- A list of statements is read by turns. -/
theorem turns_statementTurns (statement : Reader Statement) (nested : Bool) (bound : Nat)
    (cursor : Cursor) :
    Turns statement nested bound cursor (statementTurns statement nested bound cursor) := by
  induction bound generalizing cursor with
  | zero => exact .spent cursor
  | succ bound step =>
      cases more : noMoreStatements nested (cursor.skipGap isSeparator) with
      | true =>
          rw [statementTurns_stop rfl more]
          exact .stop more
      | false =>
          cases read : wholeStatement statement (cursor.skipGap isSeparator) with
          | mk found scan =>
              cases scan with
              | done item stop =>
                  rw [statementTurns_done rfl more read]
                  exact .done more read (step stop)
              | halted opened stop =>
                  rw [statementTurns_halted rfl more read]
                  exact .halted more read (step _)
              | refused =>
                  rw [statementTurns_refused rfl more read]
                  exact .refused more read rfl (step _)

/-- Where the gap in front begins does not matter. -/
theorem statementTurns_gap {cursor' : Cursor}
    (same : cursor.skipGap isSeparator = cursor'.skipGap isSeparator) (bound : Nat) :
    statementTurns statement nested (bound + 1) cursor =
      statementTurns statement nested (bound + 1) cursor' := by
  simp only [statementTurns_succ, same]

end Turns

end RecipeGraph.Parser
