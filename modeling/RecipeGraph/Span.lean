/-
# Positions in recipe text

A span is a stretch of recipe text between two byte offsets into its UTF-8 form. Every part of a
recipe that a message may point at is stored together with its span. Two parts with equal contents
count as equal wherever they stand, so comparing recipes never looks at a span.
-/

namespace RecipeGraph

/-- The stretch of text from byte `start` up to, not including, byte `stop`. -/
structure Span where
  start : Nat
  stop : Nat
deriving DecidableEq, Repr, Inhabited

namespace Span

/-- The span between two offsets; an end before the start is raised to the start, so that no span
has a negative length. -/
def between (start stop : Nat) : Span :=
  ⟨start, max stop start⟩

/-- How many bytes the span covers. -/
def length (span : Span) : Nat :=
  span.stop - span.start

/-- Whether the span covers no byte at all. -/
def isEmpty (span : Span) : Bool :=
  span.start == span.stop

/-- The least span that covers both. -/
def union (first second : Span) : Span :=
  between (min first.start second.start) (max first.stop second.stop)

/-- A span lies inside another when neither of its ends sticks out. -/
def Inside (inner outer : Span) : Prop :=
  outer.start ≤ inner.start ∧ inner.stop ≤ outer.stop

/-- Moves both ends into a text of `size` bytes. A span past the end shrinks to nothing there. -/
def clamp (span : Span) (size : Nat) : Span :=
  let start := min span.start size
  ⟨start, max start (min span.stop size)⟩

theorem between_of_le {start stop : Nat} (h : start ≤ stop) : between start stop = ⟨start, stop⟩ := by
  simp [between, Nat.max_eq_left h]

end Span

/-- A value together with the stretch of text it was read from. -/
structure Spanned (α : Type) where
  value : α
  span : Span
deriving Repr, Inhabited

namespace Spanned

/-- The same stretch of text, read as something else. -/
def map {α β : Type} (f : α → β) (item : Spanned α) : Spanned β :=
  ⟨f item.value, item.span⟩

end Spanned

end RecipeGraph
