/-
# Digits

Numbers are written with the digits from `0` to `9` and, in bases above ten, the letters from `a`
to `f`. A letter may be of either case where a number is read, and is small where one is written.
-/

namespace RecipeGraph.Text

/-- The value of a digit in a base of at most sixteen. -/
def digitValue? (base : Nat) (c : Char) : Option Nat :=
  let value :=
    if c.isDigit then c.toNat - '0'.toNat
    else if 'a' ≤ c && c ≤ 'f' then c.toNat - 'a'.toNat + 10
    else if 'A' ≤ c && c ≤ 'F' then c.toNat - 'A'.toNat + 10
    else base
  if value < base then some value else none

/-- The hexadecimal digit of a value below sixteen. -/
def hexDigit (value : Nat) : Char :=
  if value < 10 then Char.ofNat ('0'.toNat + value) else Char.ofNat ('a'.toNat + (value - 10))

/-- The last `width` hexadecimal digits of a number, most significant first. -/
def hexDigits : (width value : Nat) → List Char
  | 0, _ => []
  | width + 1, value => hexDigits width (value / 16) ++ [hexDigit (value % 16)]

theorem length_hexDigits (width value : Nat) : (hexDigits width value).length = width := by
  induction width generalizing value with
  | zero => rfl
  | succ width step => simp [hexDigits, step]

/-- A digit that was written is read back. -/
theorem digitValue?_hexDigit {value : Nat} (h : value < 16) :
    digitValue? 16 (hexDigit value) = some value := by
  have every : ∀ small : Fin 16, digitValue? 16 (hexDigit small) = some small.val := by decide
  exact every ⟨value, h⟩

end RecipeGraph.Text
