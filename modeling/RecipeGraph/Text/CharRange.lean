/-
# Ranges of code points

Properties of characters that a standard lists as ranges are stored as the list of the first and
last code point of each range.
-/

namespace RecipeGraph.Text

/-- The characters from one code point to another, both included. -/
structure CharRange where
  first : Nat
  last : Nat
deriving DecidableEq, Repr

namespace CharRange

/-- The range of a single code point. -/
def only (point : Nat) : CharRange := ⟨point, point⟩

/-- Whether a character lies in the range. -/
def contains (range : CharRange) (c : Char) : Bool :=
  decide (range.first ≤ c.toNat) && decide (c.toNat ≤ range.last)

/-- Whether a character lies in one of several ranges. -/
def anyContains (ranges : List CharRange) (c : Char) : Bool :=
  ranges.any (contains · c)

end CharRange

end RecipeGraph.Text
