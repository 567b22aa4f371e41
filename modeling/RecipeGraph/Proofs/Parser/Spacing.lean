/-
# Gaps hold nothing but blanks and comments

A filling says what a writer may put into a gap. Here is the other direction: whatever skipping a
gap passes over is a filling, but for one comment at the end that nothing in the gap closes. That is
a line comment in front of the line break that ends it, or a block comment that runs to the end of
the text.
-/

import RecipeGraph.Proofs.Parser.Filling

namespace RecipeGraph.Parser

/-- What may end a gap and is not closed in it: a comment up to the end of its line, or a block
comment up to the end of the text. -/
inductive Trailing : (text rest : List Char) → Prop
  | nothing (rest : List Char) : Trailing [] rest
  | line {body rest : List Char} (inside : '\n' ∉ body) (ends : Ahead (· = '\n') rest) :
      Trailing ('/' :: '/' :: body) rest
  | block {body : List Char} (unclosed : ¬ ['*', '/'] <:+: body) : Trailing ('/' :: '*' :: body) []

/-- Blanks and comments, with what follows them. -/
def Spacing (blank : Char → Bool) (text rest : List Char) : Prop :=
  ∃ gap tail, text = gap ++ tail ∧ Filling blank gap ∧ Trailing tail rest

variable {blank : Char → Bool} {text rest : List Char}

theorem Spacing.nothing (rest : List Char) : Spacing blank [] rest :=
  ⟨[], [], rfl, .nil, .nothing rest⟩

theorem Spacing.trailing (trailing : Trailing text rest) : Spacing blank text rest :=
  ⟨[], text, rfl, .nil, trailing⟩

theorem Spacing.piece (piece : Piece) (fits : piece.Fits blank) (spaced : Spacing blank text rest) :
    Spacing blank (piece.text ++ text) rest := by
  obtain ⟨gap, tail, rfl, filling, trailing⟩ := spaced
  have first : Filling blank piece.text :=
    ⟨[piece], by simpa using fits, by simp⟩
  exact ⟨piece.text ++ gap, tail, (List.append_assoc _ _ _).symm, first.append filling, trailing⟩

theorem Spacing.mono {wider : Char → Bool} (more : ∀ c, blank c = true → wider c = true)
    (spaced : Spacing blank text rest) : Spacing wider text rest := by
  obtain ⟨gap, tail, same, filling, trailing⟩ := spaced
  exact ⟨gap, tail, same, filling.mono more, trailing⟩

/-- In front of a character that does not end a line, all comments of a gap are closed. -/
theorem Spacing.filling (spaced : Spacing blank text rest) {c : Char} (first : rest.head? = some c)
    (solid : c ≠ '\n') : Filling blank text := by
  obtain ⟨gap, tail, rfl, filling, trailing⟩ := spaced
  cases trailing with
  | nothing => rwa [List.append_nil]
  | line inside ends => exact absurd (ends c first) solid
  | block unclosed => cases first

/-- The rest of a block comment with what follows it in its gap. -/
private def BlockRest (blank : Char → Bool) (text rest : List Char) : Prop :=
  (∃ body later, text = body ++ '*' :: '/' :: later ∧ ¬ ['*', '/'] <:+: body ∧
      Spacing blank later rest) ∨
    ¬ ['*', '/'] <:+: text ∧ rest = []

/-- The rest of a line comment with what follows it in its gap. -/
private def LineRest (blank : Char → Bool) (text rest : List Char) : Prop :=
  (∃ body later, text = body ++ '\n' :: later ∧ '\n' ∉ body ∧ blank '\n' = true ∧
      Spacing blank later rest) ∨
    '\n' ∉ text ∧ Ahead (· = '\n') rest

private theorem BlockRest.spacing (within : BlockRest blank text rest) :
    Spacing blank ('/' :: '*' :: text) rest := by
  rcases within with ⟨body, later, rfl, closed, spaced⟩ | ⟨unclosed, rfl⟩
  · have whole := spaced.piece (.block body) closed
    simpa [Piece.text] using whole
  · exact .trailing (.block unclosed)

private theorem LineRest.spacing (within : LineRest blank text rest) :
    Spacing blank ('/' :: '/' :: text) rest := by
  rcases within with ⟨body, later, rfl, inside, breaks, spaced⟩ | ⟨inside, ends⟩
  · have whole := spaced.piece (.line body) ⟨breaks, inside⟩
    simpa [Piece.text] using whole
  · exact .trailing (.line inside ends)

/-- Another character of a block comment, which does not close it. -/
private theorem BlockRest.cons {c : Char} (within : BlockRest blank text rest)
    (unclosed : ∀ more, c = '*' → text ++ rest = '/' :: more → False) :
    BlockRest blank (c :: text) rest := by
  have longer : ∀ {body more : List Char}, ¬ ['*', '/'] <:+: body → text ++ rest = body ++ more →
      ¬ ['*', '/'] <:+: c :: body := by
    intro body more before same held
    rcases List.infix_cons_iff.1 held with ⟨tail, start⟩ | inside
    · obtain ⟨rfl, rfl⟩ := List.cons.inj start
      exact unclosed (tail ++ more) rfl same
    · exact before inside
  rcases within with ⟨body, later, rfl, closed, spaced⟩ | ⟨before, rfl⟩
  · exact .inl ⟨c :: body, later, rfl, longer closed (List.append_assoc _ _ _), spaced⟩
  · exact .inr ⟨longer before rfl, rfl⟩

private theorem LineRest.cons {c : Char} (within : LineRest blank text rest) (other : c ≠ '\n') :
    LineRest blank (c :: text) rest := by
  have longer : ∀ {body : List Char}, '\n' ∉ body → '\n' ∉ c :: body := fun before held =>
    (List.mem_cons.1 held).elim (fun same => other same.symm) before
  rcases within with ⟨body, later, rfl, inside, breaks, spaced⟩ | ⟨inside, ends⟩
  · exact .inl ⟨c :: body, later, rfl, longer inside, breaks, spaced⟩
  · exact .inr ⟨longer inside, ends⟩

/-- One character more is passed over when reading begins in front of it. -/
theorem Cursor.Reaches.cons {c : Char} {offset : Nat} {stop : Cursor}
    (reached : Cursor.Reaches ⟨rest, offset + c.utf8Size⟩ text stop) :
    Cursor.Reaches ⟨c :: rest, offset⟩ (c :: text) stop :=
  ⟨congrArg (c :: ·) reached.1, by rw [reached.2, byteLength_cons, Nat.add_assoc]⟩

/-- What skipping a gap passes over is nothing but blanks and comments. -/
theorem Cursor.skipGap_spacing (blank : Char → Bool) (cursor : Cursor) :
    ∃ text, cursor.Reaches text (cursor.skipGap blank) ∧
      Spacing blank text (cursor.skipGap blank).rest := by
  obtain ⟨rest, offset⟩ := cursor
  show ∃ text, Reaches ⟨rest, offset⟩ text (skipGapFrom blank rest offset) ∧
    Spacing blank text (skipGapFrom blank rest offset).rest
  induction rest, offset using skipGapFrom.induct blank
    (motive_2 := fun rest offset => ∃ text,
      Reaches ⟨rest, offset⟩ text (skipBlockComment blank rest offset) ∧
        BlockRest blank text (skipBlockComment blank rest offset).rest)
    (motive_3 := fun rest offset => ∃ text,
      Reaches ⟨rest, offset⟩ text (skipLineComment blank rest offset) ∧
        LineRest blank text (skipLineComment blank rest offset).rest) with
  | case1 rest offset step =>
      obtain ⟨text, reached, within⟩ := step
      rw [skipGapFrom.eq_1]
      exact ⟨_, reached.cons.cons (c := '/'), within.spacing⟩
  | case2 rest offset step =>
      obtain ⟨text, reached, within⟩ := step
      rw [skipGapFrom.eq_2]
      exact ⟨_, reached.cons.cons (c := '/'), within.spacing⟩
  | case3 c rest offset noLine noBlock held step =>
      obtain ⟨text, reached, spaced⟩ := step
      rw [skipGapFrom.eq_3 _ _ _ _ noLine noBlock, if_pos held]
      exact ⟨_, reached.cons, spaced.piece (.blank c) held⟩
  | case4 c rest offset noLine noBlock solid =>
      rw [skipGapFrom.eq_3 _ _ _ _ noLine noBlock, if_neg solid]
      exact ⟨[], .refl _, .nothing _⟩
  | case5 offset => exact ⟨[], .refl _, .nothing _⟩
  | case6 offset => exact ⟨[], .refl _, .inr ⟨by simp, rfl⟩⟩
  | case7 rest offset step =>
      obtain ⟨text, reached, spaced⟩ := step
      rw [skipBlockComment]
      exact ⟨_, reached.cons.cons (c := '*'), .inl ⟨[], text, rfl, by simp, spaced⟩⟩
  | case8 c rest offset unclosed step =>
      obtain ⟨text, reached, within⟩ := step
      rw [skipBlockComment.eq_3 _ _ _ _ unclosed]
      exact ⟨_, reached.cons, within.cons fun more star same =>
        unclosed more star (reached.1.trans same)⟩
  | case9 offset =>
      refine ⟨[], .refl _, .inr ⟨by simp, fun c first => ?_⟩⟩
      cases first
  | case10 rest offset held step =>
      obtain ⟨text, reached, spaced⟩ := step
      rw [skipLineComment, if_pos held]
      exact ⟨_, reached.cons, .inl ⟨[], text, rfl, by simp, held, spaced⟩⟩
  | case11 rest offset solid =>
      rw [skipLineComment, if_neg solid]
      exact ⟨[], .refl _, .inr ⟨by simp, fun c first => (Option.some.inj first).symm⟩⟩
  | case12 c rest offset other step =>
      obtain ⟨text, reached, within⟩ := step
      rw [skipLineComment.eq_3 _ _ _ _ other]
      exact ⟨_, reached.cons, within.cons other⟩

end RecipeGraph.Parser
