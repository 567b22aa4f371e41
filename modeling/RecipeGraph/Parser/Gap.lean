/-
# Gaps between the parts of a recipe

Between two parts of a recipe may stand blanks and comments. A line comment runs from `//` up to
the end of its line, a block comment from `/*` through the next `*/`, or to the end of the text if
there is none. Which characters are blanks depends on the place: a line break ends a statement but
is a blank inside an argument list, and between statements a semicolon is a blank as well.
-/

import RecipeGraph.Parser.Cursor

namespace RecipeGraph.Parser

/-- Blanks that do not end a line. -/
def isInlineBlank (c : Char) : Bool :=
  c == ' ' || c == '\t' || c == '\r'

/-- Blanks where a statement may go on in the next line. -/
def isMultilineBlank (c : Char) : Bool :=
  isInlineBlank c || c == '\n'

/-- Blanks between statements, and between the entries of a style. -/
def isSeparator (c : Char) : Bool :=
  isMultilineBlank c || c == ';'

mutual

/-- Skips blanks and comments, counting bytes onto `offset`. -/
def skipGapFrom (blank : Char → Bool) : (rest : List Char) → (offset : Nat) → Cursor
  | '/' :: '/' :: rest, offset => skipLineComment blank rest (offset + 2)
  | '/' :: '*' :: rest, offset => skipBlockComment blank rest (offset + 2)
  | c :: rest, offset =>
    if blank c then skipGapFrom blank rest (offset + c.utf8Size) else ⟨c :: rest, offset⟩
  | [], offset => ⟨[], offset⟩
termination_by structural rest => rest

/-- Skips to the end of the line, and goes on behind it if line breaks are blanks here. -/
def skipLineComment (blank : Char → Bool) : (rest : List Char) → (offset : Nat) → Cursor
  | [], offset => ⟨[], offset⟩
  | '\n' :: rest, offset =>
    if blank '\n' then skipGapFrom blank rest (offset + 1) else ⟨'\n' :: rest, offset⟩
  | c :: rest, offset => skipLineComment blank rest (offset + c.utf8Size)
termination_by structural rest => rest

/-- Skips through the end of a block comment, and goes on behind it. -/
def skipBlockComment (blank : Char → Bool) : (rest : List Char) → (offset : Nat) → Cursor
  | [], offset => ⟨[], offset⟩
  | '*' :: '/' :: rest, offset => skipGapFrom blank rest (offset + 2)
  | c :: rest, offset => skipBlockComment blank rest (offset + c.utf8Size)
termination_by structural rest => rest

end

namespace Cursor

/-- The place behind the blanks and comments that start here. -/
def skipGap (blank : Char → Bool) (cursor : Cursor) : Cursor :=
  skipGapFrom blank cursor.rest cursor.offset

end Cursor

end RecipeGraph.Parser
