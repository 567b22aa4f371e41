/-
# Blank characters

Unquoted property values lose the blanks at both ends. A blank is any character with the Unicode
property White_Space, which is a wider set than the spaces and line breaks that separate the parts
of a recipe.
-/

import RecipeGraph.Text.CharRange

namespace RecipeGraph.Text

/-- The ranges of the property White_Space, 25 characters in all. -/
def blankRanges : List CharRange :=
  [⟨0x9, 0xd⟩, .only 0x20, .only 0x85, .only 0xa0, .only 0x1680, ⟨0x2000, 0x200a⟩,
    ⟨0x2028, 0x2029⟩, .only 0x202f, .only 0x205f, .only 0x3000]

/-- Whether a character counts as blank. -/
def isBlank (c : Char) : Bool :=
  CharRange.anyContains blankRanges c

/-- Drops the blanks at the end of a text. -/
def trimEnd : List Char → List Char
  | [] => []
  | c :: rest =>
    match trimEnd rest with
    | [] => if isBlank c then [] else [c]
    | kept => c :: kept

/-- Drops the blanks at both ends of a text. -/
def trim (text : List Char) : List Char :=
  trimEnd (text.dropWhile isBlank)

/-- A trimmed text does not end in a blank. -/
theorem trimEnd_getLast? (text : List Char) (c : Char) (h : (trimEnd text).getLast? = some c) :
    isBlank c = false := by
  induction text with
  | nil => simp [trimEnd] at h
  | cons head rest step =>
      simp only [trimEnd] at h
      cases tail : trimEnd rest with
      | nil =>
          rw [tail] at h
          by_cases blank : isBlank head
          · simp [blank] at h
          · simp only [blank, Bool.false_eq_true, if_false, List.getLast?_singleton,
              Option.some.injEq] at h
            subst h
            simpa using blank
      | cons next more =>
          rw [tail] at h step
          simp only [List.getLast?_cons_cons] at h
          exact step h

end RecipeGraph.Text
