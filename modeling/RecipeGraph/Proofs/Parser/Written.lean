/-
# Recipes are read as they are written

Whatever tree a recipe is, and however the gaps in it are filled, reading it gives back the tree and
finds nothing amiss. What follows in the next line, be it a recipe or not, is read as if it stood
alone: it cannot undo what comes before, and is only moved by the length of that.
-/

import RecipeGraph.Parser
import RecipeGraph.Proofs.Parser.Further
import RecipeGraph.Proofs.Parser.Statements

namespace RecipeGraph

namespace Parser

variable {statement : Reader Statement} {limit : Nat} {statements : List (Spanned Statement)}
  {text : List Char}

theorem RecipeText.length_le (written : RecipeText statements text) :
    statements.length ≤ text.length := by
  cases written with
  | empty filling => exact Nat.zero_le _
  | filled before run behind =>
      have few := run.length_le
      simp only [List.length_append]
      omega

/-- The statements of a recipe are read turn by turn, and what follows in the next line is read as
it would be alone. -/
theorem RecipeText.reads_statements (written : RecipeText statements text)
    (each : ReadsStatements statement limit) (small : text.length ≤ limit) (rest : List Char)
    (bound offset : Nat) :
    ∃ found, Statement.listAgrees statements found = true ∧
      statementTurns statement false (bound + 1 + statements.length) ⟨text ++ '\n' :: rest, offset⟩ =
        (statementTurns statement false (bound + 1)
          ⟨rest, offset + byteLength (text ++ ['\n'])⟩).behind found := by
  -- The gap behind the last statement goes on through the line break.
  have skip : ∀ {gap : List Char}, Filling isSeparator (gap ++ ['\n']) → ∀ offset,
      Cursor.skipGap isSeparator ⟨gap ++ '\n' :: rest, offset⟩ =
        Cursor.skipGap isSeparator ⟨rest, offset + byteLength (gap ++ ['\n'])⟩ := by
    intro gap filling offset
    have shape : gap ++ '\n' :: rest = gap ++ ['\n'] ++ rest := by simp
    rw [shape, Cursor.skipGap, filling.skip rfl]
    rfl
  cases written with
  | empty filling =>
      refine ⟨[], rfl, ?_⟩
      rw [Reply.behind_nil]
      exact statementTurns_gap (skip filling offset) bound
  | @filled _ gap text gap' before run behind =>
      have next : Next EndsStatement (gap' ++ ['\n'] ++ rest) :=
        Next.behind_breaking behind.breaking (.inl rfl) (.inr (.inl rfl))
      simp only [List.length_append] at small
      obtain ⟨found, agree, same⟩ := run.reads_statements false each (by omega) next before bound
        offset
      refine ⟨found, agree, ?_⟩
      have shape : gap ++ (text ++ gap') ++ '\n' :: rest =
          gap ++ (text ++ (gap' ++ ['\n'] ++ rest)) := by
        simp only [List.append_assoc, List.cons_append, List.nil_append]
      have stop : offset + byteLength (gap ++ (text ++ gap') ++ ['\n']) =
          offset + byteLength (gap ++ text) + byteLength (gap' ++ ['\n']) := by
        simp only [byteLength_append]
        omega
      have line : gap' ++ ['\n'] ++ rest = gap' ++ '\n' :: rest := by simp
      rw [shape, same, stop, line, statementTurns_gap (skip behind _)]

theorem recipeStatements_apply (cursor : Cursor) :
    recipeStatements cursor =
      statementTurns (fun inner => statementWithin cursor.rest.length inner) false
        (cursor.rest.length + 1) cursor := rfl

/-- A whole text is read to its end. -/
theorem recipeStatements_finishes (cursor : Cursor) :
    ∃ items stop, (recipeStatements cursor).outcome = .done items stop ∧
      noMoreStatements false stop = true :=
  (turns_statementTurns _ false _ cursor).finishes (advances_statementWithin _) (Nat.lt_succ_self _)

/-- A recipe is read as it is written, and what follows in the next line as it would be alone. -/
theorem RecipeText.recipeStatements {text : String}
    (written : RecipeText statements text.toList) (rest : String) :
    ∃ found, Statement.listAgrees statements found = true ∧
      Parser.recipeStatements (.ofText (text ++ "\n" ++ rest)) =
        ((Parser.recipeStatements (.ofText rest)).moved (text.utf8ByteSize + 1)).behind found := by
  have whole : (text ++ "\n" ++ rest).toList = text.toList ++ '\n' :: rest.toList := by simp
  have few := written.length_le
  obtain ⟨bound, turns⟩ : ∃ bound, (text.toList ++ '\n' :: rest.toList).length + 1 =
      bound + 1 + statements.length := by
    refine ⟨(text.toList ++ '\n' :: rest.toList).length - statements.length, ?_⟩
    simp only [List.length_append]
    omega
  have deep : rest.toList.length ≤ (text.toList ++ '\n' :: rest.toList).length := by
    simp only [List.length_append, List.length_cons]
    omega
  obtain ⟨found, agree, same⟩ := written.reads_statements
    (readsStatements_within (text.toList ++ '\n' :: rest.toList).length) (by simp) rest.toList
    bound 0
  refine ⟨found, agree, ?_⟩
  have size : 0 + byteLength (text.toList ++ ['\n']) = 0 + (text.utf8ByteSize + 1) := by
    rw [byteLength_append, byteLength_toList]
    rfl
  have enough : rest.toList.length < bound + 1 := by
    simp only [List.length_append, List.length_cons] at turns
    omega
  rw [recipeStatements_apply, Cursor.ofText, whole, turns, same, size]
  refine congrArg (Reply.behind found) ?_
  exact follows_statementTurns (follows_statementWithin rest.toList.length le_rfl deep)
    (advances_statementWithin rest.toList.length) false (rest.toList.length + 1) (bound + 1)
    (.ofText rest) le_rfl (Nat.lt_succ_self _) enough

end Parser

namespace Recipe

/-- The parser accepts every recipe in every layout, whatever follows it in the next line: the
statements are those that were written, those of the rest come behind them as they are read alone,
and so do the findings; only the places in the rest lie further on. -/
theorem parseLenient_written {recipe : Recipe} {text : String}
    (written : Parser.RecipeText recipe.statements text.toList) (rest : String) :
    ∃ statements, recipe.agrees ⟨statements⟩ = true ∧
      parseLenient (text ++ "\n" ++ rest) =
        (⟨statements ++ Placed.moved (text.utf8ByteSize + 1) (parseLenient rest).1.statements⟩,
          (parseLenient rest).2.map (Diagnostic.moved (text.utf8ByteSize + 1))) := by
  obtain ⟨statements, agree, same⟩ := written.recipeStatements rest
  obtain ⟨items, stop, outcome, _⟩ := Parser.recipeStatements_finishes (.ofText rest)
  refine ⟨statements, agree, ?_⟩
  rw [parseLenient, parseLenient, same]
  dsimp only [Parser.Reply.behind, Parser.Reply.moved]
  rw [outcome]
  rfl

/-- An assignment of one call. -/
def assignedCall : Recipe :=
  ⟨[⟨.assignment [⟨⟨"a", default⟩, none⟩]
    (.call ⟨⟨⟨"f", default⟩, [.reference ⟨⟨["x"]⟩, default⟩], none⟩, default⟩), default⟩]⟩

open RecipeGraph.Parser in
/-- It may be written with blanks around its mark and with a comment behind it. -/
theorem assignedCall_written :
    RecipeText assignedCall.statements "a = f(x) // made".toList := by
  have isName : ∀ c, isNameStart c = true → IsName (String.ofList [c]) :=
    fun c start => ⟨c, [], String.toList_ofList, start, nofun⟩
  have blank : Filling isInlineBlank [' '] := ⟨[.blank ' '], by simp [Piece.Fits, isInlineBlank], rfl⟩
  have comment : Filling isSeparator (" // made".toList ++ ['\n']) := by
    refine ⟨[.blank ' ', .line " made".toList], ?_, rfl⟩
    simp [Piece.Fits, isSeparator, isMultilineBlank, isInlineBlank]
  have target : TargetText ⟨⟨"a", default⟩, none⟩ ("a".toList ++ []) :=
    .intro (isName 'a' (by decide)) .missing
  have made : CallText ArgumentText ⟨⟨"f", default⟩, [.reference ⟨⟨["x"]⟩, default⟩], none⟩
      ("f".toList ++ ([] ++ '(' :: (([] ++ ("x".toList ++ [])) ++ ')' :: []))) :=
    .intro (isName 'f' (by decide)) .nil
      (.filled .nil (.one (.reference (.one ⟨isName 'x' (by decide), rfl⟩))) .nil) .missing
  have run : Run SpannedText Breaking assignedCall.statements
      ("a".toList ++ [] ++ ([' '] ++ '=' :: ([' '] ++ ("f".toList ++
        ([] ++ '(' :: (([] ++ ("x".toList ++ [])) ++ ')' :: [])))))) :=
    .one (StatementText.assignment (.one target) blank blank (.call made))
  exact .filled .nil run comment

/-- What follows may be malformed. -/
theorem parseLenient_written_assignedCall :
    Parser.RecipeText assignedCall.statements "a = f(x) // made".toList ∧
      ∃ statements, assignedCall.agrees ⟨statements⟩ = true ∧
        parseLenient ("a = f(x) // made" ++ "\n" ++ "] y") =
          (⟨statements ++ Placed.moved 17 (parseLenient "] y").1.statements⟩,
            (parseLenient "] y").2.map (Diagnostic.moved 17)) :=
  ⟨assignedCall_written, parseLenient_written assignedCall_written "] y"⟩

end Recipe

end RecipeGraph
