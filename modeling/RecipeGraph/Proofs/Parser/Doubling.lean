/-
# Reports that double with every level

Where a namespace has something behind it on its last line, what is inside is reported by the
attempt to read it, and once more when its lines are read again. If such namespaces are nested, each
level doubles the reports of the levels inside: a text of a few bytes a level has twice as many
reports with every level more. So no power of its length bounds how much is reported about a text.
-/

import Mathlib.Tactic.Ring
import RecipeGraph.Proofs.Parser.Order

namespace RecipeGraph

namespace Parser

/-- So many namespaces that are opened inside one another, the innermost one closed with something
behind it on the line. -/
def brokenLevels : (levels : Nat) → List Char
  | 0 => [']', 'x']
  | levels + 1 => 'a' :: '[' :: '\n' :: brokenLevels levels

theorem length_brokenLevels (levels : Nat) : (brokenLevels levels).length = 3 * levels + 2 := by
  induction levels with
  | zero => rfl
  | succ levels step =>
      rw [brokenLevels, List.length_cons, List.length_cons, List.length_cons, step]
      omega

theorem byteLength_brokenLevels (levels : Nat) :
    byteLength (brokenLevels levels) = 3 * levels + 2 := by
  induction levels with
  | zero => rfl
  | succ levels step =>
      rw [brokenLevels, byteLength_cons, byteLength_cons, byteLength_cons, step,
        show 'a'.utf8Size = 1 from rfl, show '['.utf8Size = 1 from rfl,
        show '\n'.utf8Size = 1 from rfl]
      omega

/-- The reader of statements in which namespaces nest to less than the given depth. -/
def statementsWithin (depth : Nat) : Reader Statement :=
  statementWithin depth

/-! ### One level -/

section Reading

variable {α β : Type} {cursor stop : Cursor} {value : α} {found : List Diagnostic}

theorem Reader.scanned_apply {first : Scanner α} {next : α → Reader β}
    (read : first cursor = .done value stop) :
    (Reader.ofScanner first >>= next) cursor = next value stop := by
  rw [Reader.bind_apply, Reader.ofScanner, read]
  rfl

theorem Reader.bind_of_done {first : Reader α} {next : α → Reader β}
    (read : first cursor = ⟨found, .done value stop⟩) :
    (first >>= next) cursor = (next value stop).afterFindings found := by
  rw [Reader.bind_apply, read]
  rfl

theorem Reader.orTry_apply {first second : Reader α}
    (refuses : first cursor = ⟨[], .refused⟩) : Reader.orTry first second cursor = second cursor := by
  rw [Reader.orTry, refuses]
  rfl

end Reading

section Level

variable {inner : Reader Statement} {rest : List Char} {offset place : Nat}
  {found : List Diagnostic} {items : List (Spanned Statement)}

/-- The gap at the beginning of a level. -/
theorem skipGap_brokenLevels (levels offset : Nat) :
    Cursor.skipGap isSeparator ⟨brokenLevels levels, offset⟩ = ⟨brokenLevels levels, offset⟩ := by
  cases levels with
  | zero => rfl
  | succ levels => rfl

theorem statementTurns_newline (nested : Bool) (levels bound offset : Nat) :
    statementTurns inner nested (bound + 1) ⟨'\n' :: brokenLevels levels, offset⟩ =
      statementTurns inner nested (bound + 1) ⟨brokenLevels levels, offset + 1⟩ := by
  refine statementTurns_gap ?_ bound
  cases levels with
  | zero => rfl
  | succ levels => rfl

theorem namespaceWith_opened
    (inside : statementList inner true ⟨rest, offset + 2⟩ =
      ⟨found, .done items ⟨[']', 'x'], place⟩⟩) :
    ∃ level, namespaceWith inner ⟨'a' :: '[' :: rest, offset⟩ =
      ⟨found, .done level ⟨['x'], place + 1⟩⟩ := by
  obtain ⟨name, named⟩ : ∃ name, leadingName (Cursor.skipGap isInlineBlank)
      ⟨'a' :: '[' :: rest, offset⟩ = .done name ⟨'[' :: rest, offset + 1⟩ := ⟨_, rfl⟩
  have opened : Scanner.exactly '[' ⟨'[' :: rest, offset + 1⟩ = .done () ⟨rest, offset + 2⟩ := rfl
  have closed : Scanner.closing ']' ⟨[']', 'x'], place⟩ = .done () ⟨['x'], place + 1⟩ := rfl
  have argued : trailingArguments ⟨['x'], place + 1⟩ = .done [] ⟨['x'], place + 1⟩ := rfl
  have styled : trailingStyle ⟨['x'], place + 1⟩ = .done none ⟨['x'], place + 1⟩ := rfl
  refine ⟨⟨⟨name, items, [], none⟩,
    Cursor.spanTo ⟨'a' :: '[' :: rest, offset⟩ ⟨['x'], place + 1⟩⟩, ?_⟩
  rw [namespaceWith, Reader.located, Reader.scanned_apply named, Reader.scanned_apply opened,
    Reader.bind_of_done inside, Reader.scanned_apply closed, Reader.scanned_apply argued,
    Reader.scanned_apply styled]
  change Reply.mk (found ++ []) _ = _
  rw [List.append_nil]

/-- A level is read, but no statement may end where it does. -/
theorem wholeStatement_opened
    (inside : statementList inner true ⟨rest, offset + 2⟩ =
      ⟨found, .done items ⟨[']', 'x'], place⟩⟩) :
    wholeStatement (statementWith inner) ⟨'a' :: '[' :: rest, offset⟩ = ⟨found, .refused⟩ := by
  obtain ⟨level, read⟩ := namespaceWith_opened inside
  have whole : statementWith inner ⟨'a' :: '[' :: rest, offset⟩ =
      ⟨found, .done (.level level.value) ⟨['x'], place + 1⟩⟩ := by
    have leveled : ((fun level => Statement.level level.value) <$> namespaceWith inner)
        ⟨'a' :: '[' :: rest, offset⟩ = ⟨found, .done (.level level.value) ⟨['x'], place + 1⟩⟩ := by
      refine (Reader.bind_of_done read).trans ?_
      change Reply.mk (found ++ []) _ = _
      rw [List.append_nil]
      rfl
    rw [statementWith, Reader.orTry_apply rfl, Reader.orTry_apply rfl, Reader.orTry_apply rfl,
      Reader.orTry_apply rfl, Reader.orTry, leveled]
  have ended : statementEnd ⟨['x'], place + 1⟩ = .refused := rfl
  rw [wholeStatement, Reader.bind_apply, Reader.located, whole]
  dsimp only
  rw [Reader.bind_apply, Reader.ofScanner, ended]
  dsimp only
  rw [List.append_nil]

theorem skipStatement_opened (nested : Bool) (offset : Nat) :
    skipStatement nested ⟨'a' :: '[' :: '\n' :: rest, offset⟩ = ⟨'\n' :: rest, offset + 2⟩ := by
  have taken : skipRemainder nested ⟨'a' :: '[' :: '\n' :: rest, offset⟩ =
      ⟨'\n' :: rest, offset + 2⟩ := by
    cases nested with
    | true => rfl
    | false => rfl
  rw [skipStatement, taken]
  exact if_neg (by simp)

theorem skipStatement_closed (offset : Nat) :
    skipStatement false ⟨[']', 'x'], offset⟩ = ⟨[], offset + 2⟩ := by
  have taken : skipRemainder false ⟨[']', 'x'], offset⟩ = ⟨[], offset + 2⟩ := rfl
  rw [skipStatement, taken]
  exact if_neg (by simp)

theorem statementWithin_closed (depth offset : Nat) :
    wholeStatement (statementsWithin depth) ⟨[']', 'x'], offset⟩ =
      ⟨[], .refused⟩ := by
  cases depth with
  | zero => rfl
  | succ depth => rfl

end Level

/-! ### All levels -/

/-- The text of a level is read with the reports that the level makes, and taken back. -/
theorem statementTurns_opened (nested : Bool) (bound : Nat) {levels depth offset place : Nat}
    {found : List Diagnostic} {items : List (Spanned Statement)}
    (inside : statementTurns (statementsWithin depth) true
      ((brokenLevels levels).length + 1 + 1) ⟨brokenLevels levels, offset + 3⟩ =
        ⟨found, .done items ⟨[']', 'x'], place⟩⟩) :
    ∃ report, statementTurns (statementsWithin (depth + 1)) nested
        (bound + 1 + 1) ⟨brokenLevels (levels + 1), offset⟩ =
      (statementTurns (statementsWithin (depth + 1)) nested (bound + 1)
        ⟨brokenLevels levels, offset + 3⟩).afterFindings (found ++ [report]) := by
  have level : statementList (statementsWithin depth) true
      ⟨'\n' :: brokenLevels levels, offset + 2⟩ = ⟨found, .done items ⟨[']', 'x'], place⟩⟩ := by
    rw [statementList, List.length_cons, statementTurns_newline]
    exact inside
  have attempt : wholeStatement (statementsWithin (depth + 1))
      ⟨brokenLevels (levels + 1), offset⟩ = ⟨found, .refused⟩ := wholeStatement_opened level
  rw [statementTurns_refused (skipGap_brokenLevels (levels + 1) offset) (by cases nested <;> rfl)
    attempt, brokenLevels, skipStatement_opened, statementTurns_newline]
  exact ⟨_, rfl⟩

/-- Inside a namespace, every level reports what the levels inside it report, takes that back with
a report of its own, and reports it again. -/
theorem nested_brokenLevels (levels depth bound offset : Nat) (deep : levels ≤ depth)
    (enough : levels < bound) :
    ∃ found, found.length + 1 = 2 ^ levels ∧
      statementTurns (statementsWithin depth) true bound
        ⟨brokenLevels levels, offset⟩ = ⟨found, .done [] ⟨[']', 'x'], offset + 3 * levels⟩⟩ := by
  induction levels generalizing depth bound offset with
  | zero =>
      obtain ⟨bound, rfl⟩ := Nat.exists_eq_succ_of_ne_zero (Nat.ne_of_gt enough)
      exact ⟨[], rfl, statementTurns_stop rfl rfl bound⟩
  | succ levels step =>
      obtain ⟨depth, rfl⟩ := Nat.exists_eq_succ_of_ne_zero (Nat.ne_of_gt (Nat.lt_of_lt_of_le
        (Nat.succ_pos levels) deep))
      obtain ⟨bound, rfl⟩ : ∃ fewer, bound = fewer + 1 + 1 := ⟨bound - 2, by omega⟩
      have long := length_brokenLevels levels
      obtain ⟨first, size, inside⟩ := step depth ((brokenLevels levels).length + 1 + 1) (offset + 3)
        (by omega) (by omega)
      obtain ⟨second, size', again⟩ := step (depth + 1) (bound + 1) (offset + 3) (by omega)
        (by omega)
      obtain ⟨report, read⟩ := statementTurns_opened true bound inside
      refine ⟨first ++ [report] ++ second, ?_, ?_⟩
      · rw [Nat.pow_succ, List.length_append, List.length_append, List.length_singleton]
        omega
      · rw [read, again, show offset + 3 + 3 * levels = offset + 3 * (levels + 1) by omega]
        rfl

/-- In a text of nothing but levels, each level doubles the reports. -/
theorem outer_brokenLevels (levels depth bound offset : Nat) (deep : levels ≤ depth)
    (enough : levels + 1 < bound) :
    (statementTurns (statementsWithin depth) false bound
      ⟨brokenLevels levels, offset⟩).findings.length = 2 ^ levels := by
  induction levels generalizing depth bound offset with
  | zero =>
      obtain ⟨bound, rfl⟩ : ∃ fewer, bound = fewer + 1 + 1 := ⟨bound - 2, by omega⟩
      rw [statementTurns_refused (skipGap_brokenLevels 0 offset) rfl
        (statementWithin_closed depth offset), brokenLevels, skipStatement_closed,
        statementTurns_stop rfl rfl]
      rfl
  | succ levels step =>
      obtain ⟨depth, rfl⟩ := Nat.exists_eq_succ_of_ne_zero (Nat.ne_of_gt (Nat.lt_of_lt_of_le
        (Nat.succ_pos levels) deep))
      obtain ⟨bound, rfl⟩ : ∃ fewer, bound = fewer + 1 + 1 := ⟨bound - 2, by omega⟩
      have long := length_brokenLevels levels
      obtain ⟨first, size, inside⟩ := nested_brokenLevels levels depth
        ((brokenLevels levels).length + 1 + 1) (offset + 3) (by omega) (by omega)
      have again := step (depth + 1) (bound + 1) (offset + 3) (by omega) (by omega)
      obtain ⟨report, read⟩ := statementTurns_opened false bound inside
      rw [read, Reply.afterFindings, List.length_append, List.length_append,
        List.length_singleton, again, Nat.pow_succ]
      omega

end Parser

namespace Recipe

open RecipeGraph.Parser

theorem parseLenient_brokenLevels (levels : Nat) :
    (parseLenient (String.ofList (brokenLevels levels))).2.length = 2 ^ levels := by
  have long := length_brokenLevels levels
  have doubled := outer_brokenLevels levels (brokenLevels levels).length
    ((brokenLevels levels).length + 1) 0 (by omega) (by omega)
  have reply : recipeStatements (.ofText (String.ofList (brokenLevels levels))) =
      statementTurns (statementsWithin (brokenLevels levels).length) false
        ((brokenLevels levels).length + 1) ⟨brokenLevels levels, 0⟩ := by
    rw [Cursor.ofText, String.toList_ofList]
    rfl
  unfold parseLenient
  rw [reply]
  dsimp only
  split
  · exact doubled
  · exact doubled

/-- A power of two outgrows every power of what is less than four times its exponent. -/
theorem exists_lt_two_pow (factor power : Nat) :
    ∃ levels, factor * (3 * levels + 3) ^ power < 2 ^ levels := by
  obtain ⟨k, wide⟩ : ∃ k, k = factor + 2 * power + 3 := ⟨_, rfl⟩
  have exponent : factor + (2 * k + 3) * power < 2 ^ (2 * k) := by
    have square : k * k < 2 ^ (2 * k) := by
      rw [Nat.two_mul, Nat.pow_add]
      exact Nat.mul_lt_mul'' Nat.lt_two_pow_self Nat.lt_two_pow_self
    have expanded : k * k = k * factor + 2 * k * power + 3 * k := by
      calc k * k = k * (factor + 2 * power + 3) := by rw [← wide]
        _ = k * factor + 2 * k * power + 3 * k := by ring
    have factors : factor ≤ k * factor := Nat.le_mul_of_pos_left _ (by omega)
    have powers : (2 * k + 3) * power = 2 * k * power + 3 * power := by ring
    omega
  refine ⟨2 ^ (2 * k), ?_⟩
  have base : 3 * 2 ^ (2 * k) + 3 ≤ 2 ^ (2 * k + 3) := by
    have := Nat.one_le_two_pow (n := 2 * k)
    rw [Nat.pow_add]
    omega
  calc factor * (3 * 2 ^ (2 * k) + 3) ^ power
      ≤ 2 ^ factor * (2 ^ (2 * k + 3)) ^ power :=
        Nat.mul_le_mul Nat.lt_two_pow_self.le (Nat.pow_le_pow_left base power)
    _ = 2 ^ (factor + (2 * k + 3) * power) := by rw [← Nat.pow_mul, ← Nat.pow_add]
    _ < 2 ^ 2 ^ (2 * k) := Nat.pow_lt_pow_right Nat.one_lt_two exponent

/-- It is not so that every stretch of text is reported once, or that a power of the length of a
text bounds the number of reports. -/
theorem parseLenient_repeats :
    (¬ ∀ source, ((parseLenient source).2.map Diagnostic.primary?).Nodup) ∧
      ¬ ∃ factor power, ∀ source,
        (parseLenient source).2.length ≤ factor * (source.utf8ByteSize + 1) ^ power := by
  constructor
  · intro distinct
    have once := distinct "ns[\n!!\n] junk\n"
    revert once
    decide +kernel
  · rintro ⟨factor, power, bounded⟩
    obtain ⟨levels, more⟩ := exists_lt_two_pow factor power
    have bound := bounded (String.ofList (brokenLevels levels))
    rw [parseLenient_brokenLevels, ← byteLength_toList, String.toList_ofList,
      byteLength_brokenLevels] at bound
    exact absurd more (Nat.not_lt.2 bound)

end Recipe

end RecipeGraph
