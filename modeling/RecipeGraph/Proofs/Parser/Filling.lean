/-
# What gaps may be filled with

A gap is filled with blanks, closed block comments and, where line breaks are blanks, with line
comments up to the end of their line. Skipping a gap skips a whole filling and goes on behind it, so
two fillings in a row are one. Within a line skipping stops at the first line break or semicolon
that is not part of a comment; that is how a statement finds its end.
-/

import Mathlib.Data.List.Infix
import RecipeGraph.Parser.Gap

namespace RecipeGraph.Parser

/-- One part of a filling. -/
inductive Piece where
  | blank (c : Char)
  /-- A block comment that is closed. -/
  | block (body : List Char)
  /-- A line comment with the line break that ends it. -/
  | line (body : List Char)

namespace Piece

def text : Piece → List Char
  | .blank c => [c]
  | .block body => '/' :: '*' :: (body ++ ['*', '/'])
  | .line body => '/' :: '/' :: (body ++ ['\n'])

/-- Whether a piece may stand where the given characters are blanks. -/
def Fits (blank : Char → Bool) : Piece → Prop
  | .blank c => blank c = true
  | .block body => ¬ ['*', '/'] <:+: body
  | .line body => blank '\n' = true ∧ '\n' ∉ body

/-- Whether a piece ends a statement: it has a line break or a semicolon outside of comments. -/
def Breaks : Piece → Prop
  | .blank c => c = '\n' ∨ c = ';'
  | .block _ => False
  | .line _ => True

end Piece

/-- A text that may fill a gap. -/
def Filling (blank : Char → Bool) (gap : List Char) : Prop :=
  ∃ pieces : List Piece, (∀ piece ∈ pieces, piece.Fits blank) ∧ gap = pieces.flatMap Piece.text

/-- A text that may stand between two statements. -/
def Breaking (gap : List Char) : Prop :=
  ∃ pieces : List Piece, (∀ piece ∈ pieces, piece.Fits isSeparator) ∧
    (∃ piece ∈ pieces, piece.Breaks) ∧ gap = pieces.flatMap Piece.text

namespace Filling

variable {blank : Char → Bool} {gap gap' : List Char}

theorem nil : Filling blank [] :=
  ⟨[], nofun, rfl⟩

theorem append (first : Filling blank gap) (second : Filling blank gap') :
    Filling blank (gap ++ gap') := by
  obtain ⟨pieces, fits, rfl⟩ := first
  obtain ⟨pieces', fits', rfl⟩ := second
  refine ⟨pieces ++ pieces', fun piece held => ?_, List.flatMap_append.symm⟩
  exact (List.mem_append.1 held).elim (fits piece) (fits' piece)

/-- What fills a gap also fills one where more characters are blanks. -/
theorem mono {wider : Char → Bool} (more : ∀ c, blank c = true → wider c = true)
    (filling : Filling blank gap) : Filling wider gap := by
  obtain ⟨pieces, fits, rfl⟩ := filling
  refine ⟨pieces, fun piece held => ?_, rfl⟩
  have here := fits piece held
  cases piece with
  | blank c => exact more c here
  | block body => exact here
  | line body => exact ⟨more _ here.1, here.2⟩

end Filling

theorem Breaking.filling {gap : List Char} (breaking : Breaking gap) : Filling isSeparator gap := by
  obtain ⟨pieces, fits, _, rfl⟩ := breaking
  exact ⟨pieces, fits, rfl⟩

/-- A filling that ends in a line break has one outside of comments. -/
theorem Filling.breaking {gap : List Char} (filling : Filling isSeparator (gap ++ ['\n'])) :
    Breaking (gap ++ ['\n']) := by
  obtain ⟨pieces, fits, same⟩ := filling
  refine ⟨pieces, fits, ?_, same⟩
  obtain rfl | ⟨before, last, rfl⟩ := List.eq_nil_or_concat pieces
  · exact absurd same (by simp)
  · refine ⟨last, by simp, ?_⟩
    cases last with
    | blank c =>
        have whole := congrArg List.getLast? same
        exact .inl (by simpa [Piece.text] using whole.symm)
    | block body =>
        -- A block comment does not end in a line break.
        have text : (Piece.block body).text = '/' :: '*' :: (body ++ ['*']) ++ ['/'] := by
          simp [Piece.text]
        rw [List.concat_eq_append, List.flatMap_append, List.flatMap_singleton, text,
          ← List.append_assoc] at same
        exact absurd (List.append_inj_right' same rfl) (by decide)
    | line body => trivial

/-! ### Skipping -/

section Skip

variable {blank : Char → Bool} {rest : List Char} {offset : Nat}

/-- A blank is skipped. -/
theorem skipGapFrom_blank (slash : blank '/' = false) {c : Char} (held : blank c = true) :
    skipGapFrom blank (c :: rest) offset = skipGapFrom blank rest (offset + c.utf8Size) := by
  have other : c ≠ '/' := by
    rintro rfl
    rw [slash] at held
    cases held
  rw [skipGapFrom.eq_3 _ _ _ _ (fun _ same _ => other same) fun _ same _ => other same, if_pos held]

/-- A closed block comment is skipped. -/
theorem skipBlockComment_closed {body : List Char} (closed : ¬ ['*', '/'] <:+: body) :
    skipBlockComment blank (body ++ '*' :: '/' :: rest) offset =
      skipGapFrom blank rest (offset + byteLength body + 2) := by
  induction body generalizing offset with
  | nil => rw [List.nil_append, skipBlockComment, byteLength_nil, Nat.add_zero]
  | cons c body step =>
      have later : ¬ ['*', '/'] <:+: body := fun held => closed (held.trans (List.suffix_cons c body).isInfix)
      -- The comment does not end between this character and the next one.
      have unclosed : ∀ more, c = '*' → body ++ '*' :: '/' :: rest = '/' :: more → False := by
        rintro more rfl same
        cases body with
        | nil => exact absurd (List.cons.inj same).1 (by decide)
        | cons next body =>
            obtain ⟨rfl, _⟩ := List.cons.inj same
            exact closed ⟨[], body, rfl⟩
      rw [List.cons_append, skipBlockComment.eq_3 _ _ _ _ unclosed, step later, byteLength_cons]
      congr 1
      omega

/-- A line comment is skipped with the line break that ends it, where that is a blank. -/
theorem skipLineComment_line {body : List Char} (breaks : blank '\n' = true) (inside : '\n' ∉ body) :
    skipLineComment blank (body ++ '\n' :: rest) offset =
      skipGapFrom blank rest (offset + byteLength body + 1) := by
  induction body generalizing offset with
  | nil => rw [List.nil_append, skipLineComment, if_pos breaks, byteLength_nil, Nat.add_zero]
  | cons c body step =>
      obtain ⟨other, later⟩ := not_or.1 (fun held => inside (List.mem_cons.2 held))
      rw [List.cons_append, skipLineComment.eq_3 _ _ _ _ fun same => other same.symm, step later,
        byteLength_cons]
      congr 1
      omega

/-- A line comment is skipped up to the line break, where that is no blank. -/
theorem skipLineComment_stops {body : List Char} (stops : blank '\n' = false)
    (inside : '\n' ∉ body) :
    skipLineComment blank (body ++ '\n' :: rest) offset = ⟨'\n' :: rest, offset + byteLength body⟩ := by
  induction body generalizing offset with
  | nil =>
      rw [List.nil_append, skipLineComment, stops, if_neg Bool.false_ne_true, byteLength_nil,
        Nat.add_zero]
  | cons c body step =>
      obtain ⟨other, later⟩ := not_or.1 (fun held => inside (List.mem_cons.2 held))
      rw [List.cons_append, skipLineComment.eq_3 _ _ _ _ fun same => other same.symm, step later,
        byteLength_cons, Nat.add_assoc]

/-- The characters of comment marks take up one byte each. -/
private theorem utf8Size_marks :
    '/'.utf8Size = 1 ∧ '*'.utf8Size = 1 ∧ '\n'.utf8Size = 1 := by
  decide

theorem Piece.skip (slash : blank '/' = false) {piece : Piece} (fits : piece.Fits blank) :
    skipGapFrom blank (piece.text ++ rest) offset =
      skipGapFrom blank rest (offset + byteLength piece.text) := by
  obtain ⟨size, size', size''⟩ := utf8Size_marks
  cases piece with
  | blank c => exact skipGapFrom_blank slash fits
  | block body =>
      show skipGapFrom blank ('/' :: '*' :: (body ++ ['*', '/'] ++ rest)) offset = _
      rw [skipGapFrom.eq_2, List.append_assoc]
      refine (skipBlockComment_closed fits).trans (congrArg _ ?_)
      simp only [Piece.text, byteLength_cons, byteLength_append, byteLength_nil]
      omega
  | line body =>
      show skipGapFrom blank ('/' :: '/' :: (body ++ ['\n'] ++ rest)) offset = _
      rw [skipGapFrom.eq_1, List.append_assoc]
      refine (skipLineComment_line fits.1 fits.2).trans (congrArg _ ?_)
      simp only [Piece.text, byteLength_cons, byteLength_append, byteLength_nil]
      omega

/-- Skipping goes on behind a filling. -/
theorem Filling.skip (slash : blank '/' = false) {gap : List Char} (filling : Filling blank gap) :
    skipGapFrom blank (gap ++ rest) offset = skipGapFrom blank rest (offset + byteLength gap) := by
  obtain ⟨pieces, fits, rfl⟩ := filling
  induction pieces generalizing offset with
  | nil => rfl
  | cons piece pieces step =>
      have here : skipGapFrom blank (piece.text ++ (pieces.flatMap Piece.text ++ rest)) offset = _ :=
        Piece.skip slash (fits piece List.mem_cons_self)
      rw [List.flatMap_cons, List.append_assoc, here,
        step fun other held => fits other (List.mem_cons_of_mem _ held), byteLength_append,
        Nat.add_assoc]

/-- Skipping stops at any other character that starts no comment. -/
theorem skipGapFrom_solid {c : Char} (solid : blank c = false) (slash : c ≠ '/') :
    skipGapFrom blank (c :: rest) offset = ⟨c :: rest, offset⟩ := by
  rw [skipGapFrom.eq_3 _ _ _ _ (fun _ same _ => slash same) fun _ same _ => slash same, solid,
    if_neg Bool.false_ne_true]

end Skip

/-- A gap between statements that has been skipped in part, up to the end of a line, is skipped to
the same place. -/
theorem skipGapFrom_again (rest : List Char) (offset : Nat) :
    (skipGapFrom isInlineBlank rest offset).skipGap isSeparator =
      skipGapFrom isSeparator rest offset := by
  induction rest, offset using skipGapFrom.induct isInlineBlank
    (motive_2 := fun rest offset =>
      (skipBlockComment isInlineBlank rest offset).skipGap isSeparator =
        skipBlockComment isSeparator rest offset)
    (motive_3 := fun rest offset =>
      (skipLineComment isInlineBlank rest offset).skipGap isSeparator =
        skipLineComment isSeparator rest offset) with
  | case1 rest offset step => rw [skipGapFrom.eq_1, skipGapFrom.eq_1, step]
  | case2 rest offset step => rw [skipGapFrom.eq_2, skipGapFrom.eq_2, step]
  | case3 c rest offset noLine noBlock blank step =>
      have wide : isSeparator c = true := by simp [isSeparator, isMultilineBlank, blank]
      rw [skipGapFrom.eq_3 _ _ _ _ noLine noBlock, skipGapFrom.eq_3 _ _ _ _ noLine noBlock,
        if_pos blank, if_pos wide, step]
  | case4 c rest offset noLine noBlock solid =>
      rw [skipGapFrom.eq_3 isInlineBlank _ _ _ noLine noBlock, if_neg solid]
      rfl
  | case5 offset => rfl
  | case6 offset => rfl
  | case7 rest offset step => rw [skipBlockComment, skipBlockComment, step]
  | case8 c rest offset unclosed step =>
      rw [skipBlockComment.eq_3 _ _ _ _ unclosed, skipBlockComment.eq_3 _ _ _ _ unclosed, step]
  | case9 offset => rfl
  | case10 rest offset blank step => exact absurd blank (by decide)
  | case11 rest offset solid => rfl
  | case12 c rest offset other step =>
      rw [skipLineComment.eq_3 _ _ _ _ other, skipLineComment.eq_3 _ _ _ _ other, step]

/-! ### What a text begins with -/

/-- If a text is not empty, it begins with an accepted character. -/
def Ahead (accept : Char → Prop) (rest : List Char) : Prop :=
  ∀ c ∈ rest.head?, accept c

/-- A text is not empty and begins with an accepted character. -/
def Starts (accept : Char → Prop) (text : List Char) : Prop :=
  ∃ c tail, text = c :: tail ∧ accept c

/-- Nothing at the beginning of a text is part of a gap. -/
def Solid (blank : Char → Bool) (rest : List Char) : Prop :=
  Ahead (fun c => blank c = false ∧ c ≠ '/') rest

section Beginning

variable {accept wider : Char → Prop} {text rest : List Char} {c : Char}

theorem Ahead.cons (held : accept c) : Ahead accept (c :: rest) :=
  fun _ same => Option.some.inj same ▸ held

theorem Ahead.mono (ahead : Ahead accept rest) (more : ∀ c, accept c → wider c) :
    Ahead wider rest :=
  fun c held => more c (ahead c held)

theorem Starts.cons (held : accept c) : Starts accept (c :: rest) :=
  ⟨c, rest, rfl, held⟩

theorem Starts.mono (starts : Starts accept text) (more : ∀ c, accept c → wider c) :
    Starts wider text := by
  obtain ⟨c, tail, same, held⟩ := starts
  exact ⟨c, tail, same, more c held⟩

theorem Starts.append (starts : Starts accept text) (rest : List Char) :
    Starts accept (text ++ rest) := by
  obtain ⟨c, tail, rfl, held⟩ := starts
  exact .cons held

theorem Starts.ahead (starts : Starts accept text) : Ahead accept text := by
  obtain ⟨c, tail, rfl, held⟩ := starts
  exact .cons held

theorem Starts.length_pos (starts : Starts accept text) : 0 < text.length := by
  obtain ⟨c, tail, rfl, held⟩ := starts
  exact Nat.succ_pos _

/-- What a filling begins with, or else what comes behind it. -/
theorem Filling.ahead {blank : Char → Bool} {gap : List Char} (filling : Filling blank gap)
    (ahead : Ahead accept rest) :
    Ahead (fun c => blank c = true ∨ c = '/' ∨ accept c) (gap ++ rest) := by
  obtain ⟨pieces, fits, rfl⟩ := filling
  cases pieces with
  | nil => exact ahead.mono fun c held => .inr (.inr held)
  | cons piece pieces =>
      have here := fits piece List.mem_cons_self
      cases piece with
      | blank c => exact .cons (.inl here)
      | block body => exact .cons (.inr (.inl rfl))
      | line body => exact .cons (.inr (.inl rfl))

end Beginning

/-! ### What comes next on a line -/

/-- If anything comes behind the blanks and comments of a line, then it is an accepted character. -/
def Next (accept : Char → Prop) (rest : List Char) : Prop :=
  ∀ offset, Ahead accept (skipGapFrom isInlineBlank rest offset).rest

section Next

variable {accept : Char → Prop} {rest gap : List Char}

theorem Next.mono {wider : Char → Prop} (next : Next accept rest) (more : ∀ c, accept c → wider c) :
    Next wider rest :=
  fun offset => (next offset).mono more

theorem Next.here {c : Char} (solid : isInlineBlank c = false) (slash : c ≠ '/') (held : accept c) :
    Next accept (c :: rest) := by
  intro offset
  rw [skipGapFrom_solid solid slash]
  exact .cons held

theorem Next.behind_piece (piece : Piece) (fits : piece.Fits isInlineBlank)
    (next : Next accept rest) : Next accept (piece.text ++ rest) := by
  intro offset
  rw [Piece.skip rfl fits]
  exact next _

theorem Next.behind_line {body : List Char} (inside : '\n' ∉ body) (held : accept '\n') :
    Next accept ((Piece.line body).text ++ rest) := by
  intro offset
  show Ahead accept (skipGapFrom isInlineBlank ('/' :: '/' :: (body ++ ['\n'] ++ rest)) offset).rest
  rw [skipGapFrom.eq_1, List.append_assoc, List.singleton_append,
    skipLineComment_stops rfl inside]
  exact .cons held

/-- The gap behind which something comes may be filled with more than a line holds, if that is
accepted as well. -/
theorem Next.behind {blank : Char → Bool} (filling : Filling blank gap)
    (others : ∀ c, blank c = true → isInlineBlank c = true ∨ c ≠ '/' ∧ accept c)
    (next : Next accept rest) : Next accept (gap ++ rest) := by
  obtain ⟨pieces, fits, rfl⟩ := filling
  induction pieces with
  | nil => exact next
  | cons piece pieces step =>
      have later := step fun other held => fits other (List.mem_cons_of_mem _ held)
      have here := fits piece List.mem_cons_self
      rw [List.flatMap_cons, List.append_assoc]
      cases piece with
      | blank c =>
          by_cases inline : isInlineBlank c = true
          · exact later.behind_piece (.blank c) inline
          · obtain ⟨slash, accepted⟩ := (others c here).resolve_left inline
            exact .here (Bool.eq_false_iff.2 inline) slash accepted
      | block body => exact later.behind_piece (.block body) here
      | line body =>
          exact .behind_line here.2 ((others '\n' here.1).resolve_left (by decide)).2

theorem Next.behind_inline (filling : Filling isInlineBlank gap) (next : Next accept rest) :
    Next accept (gap ++ rest) :=
  next.behind filling fun _ blank => .inl blank

/-- A breaking filling has a line break or a semicolon next on its line. -/
theorem Next.behind_breaking (breaking : Breaking gap) (line : accept '\n') (semicolon : accept ';') :
    Next accept (gap ++ rest) := by
  obtain ⟨pieces, fits, breaks, rfl⟩ := breaking
  induction pieces with
  | nil => exact absurd breaks nofun
  | cons piece pieces step =>
      have here := fits piece List.mem_cons_self
      rw [List.flatMap_cons, List.append_assoc]
      by_cases ends : piece.Breaks
      · cases piece with
        | blank c =>
            rcases ends with rfl | rfl
            · exact .here (by decide) (by decide) line
            · exact .here (by decide) (by decide) semicolon
        | block body => exact ends.elim
        | line body => exact .behind_line here.2 line
      · obtain ⟨other, held, later⟩ := breaks
        have inner : ∃ piece ∈ pieces, piece.Breaks := by
          rcases List.mem_cons.1 held with rfl | held
          · exact absurd later ends
          · exact ⟨other, held, later⟩
        have next := step (fun other held => fits other (List.mem_cons_of_mem _ held)) inner
        cases piece with
        | blank c =>
            have inline : isInlineBlank c = true := by
              obtain ⟨noLine, noSemicolon⟩ := not_or.1 ends
              simpa [Piece.Fits, isSeparator, isMultilineBlank, noLine, noSemicolon] using here
            exact next.behind_piece (.blank c) inline
        | block body => exact next.behind_piece (.block body) here
        | line body => exact absurd trivial ends

/-- What stands first is a blank, starts a comment, or is accepted. -/
theorem Next.ahead (next : Next accept rest) :
    Ahead (fun c => isInlineBlank c = true ∨ c = '/' ∨ accept c) rest := by
  intro c held
  cases rest with
  | nil => cases held
  | cons first rest =>
      obtain rfl := Option.some.inj held
      by_cases inline : isInlineBlank first = true
      · exact .inl inline
      · by_cases slash : first = '/'
        · exact .inr (.inl slash)
        · refine .inr (.inr (next 0 first ?_))
          rw [skipGapFrom_solid (Bool.eq_false_iff.2 inline) slash]
          rfl

end Next

end RecipeGraph.Parser
