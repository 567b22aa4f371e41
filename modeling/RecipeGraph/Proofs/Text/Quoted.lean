/-
# Quoted texts can be read back

Every escape says which character it stands for and ends by itself, and none begins with a quote. So
a quoted text ends at the first quote that is not part of an escape, and what stands before it gives
the characters of the text.
-/

import Mathlib.Algebra.Group.Nat.Defs
import RecipeGraph.Proofs.Data.ReadsBack
import RecipeGraph.Text.Quoted

namespace RecipeGraph.Text

/-! ### Code points -/

/-- The number that hexadecimal digits stand for. -/
def digitsValue (digits : List Char) : Nat :=
  digits.foldl (fun value digit => 16 * value + (digitValue? 16 digit).getD 0) 0

theorem digitsValue_hexDigits (width value : Nat) :
    digitsValue (hexDigits width value) = value % 16 ^ width := by
  induction width generalizing value with
  | zero => rw [hexDigits, Nat.pow_zero, Nat.mod_one, digitsValue, List.foldl_nil]
  | succ width step =>
      have last := digitValue?_hexDigit (Nat.mod_lt value (by decide : 16 > 0))
      have before : digitsValue (hexDigits width (value / 16)) = value / 16 % 16 ^ width := step _
      rw [digitsValue] at before
      rw [hexDigits, digitsValue, List.foldl_append, before, List.foldl_cons, List.foldl_nil, last,
        Option.getD_some, Nat.pow_succ', Nat.mod_mul, Nat.add_comm]

/-- A number has as many digits as it needs. -/
theorem lt_pow_hexWidth {bound value : Nat} (small : value < 16 ^ (bound + 1)) :
    value < 16 ^ hexWidth bound value := by
  induction bound generalizing value with
  | zero => exact small
  | succ bound step =>
      rw [hexWidth]
      split
      · next digit => exact digit
      · have fewer : value / 16 < 16 ^ (bound + 1) := by omega
        have enough := step fewer
        rw [Nat.pow_succ]
        omega

theorem mark_not_mem_hexDigits (width value : Nat) : '\x7d' ∉ hexDigits width value := by
  have every : ∀ small : Fin 16, hexDigit small ≠ '\x7d' := by decide
  induction width generalizing value with
  | zero => exact nofun
  | succ width step =>
      intro held
      rcases List.mem_append.1 held with earlier | last
      · exact step _ earlier
      · exact every ⟨value % 16, Nat.mod_lt _ (by decide)⟩ (List.mem_singleton.1 last).symm

/-! ### Escapes -/

/-- The character that stands at the beginning of a quoted text, and what comes behind it. -/
def unescape : List Char → Option (Char × List Char)
  | '\\' :: 'u' :: '\x7b' :: rest =>
    some (Char.ofNat (digitsValue (rest.takeWhile (· ≠ '\x7d'))),
      (rest.dropWhile (· ≠ '\x7d')).drop 1)
  | '\\' :: 'n' :: rest => some ('\n', rest)
  | '\\' :: 'r' :: rest => some ('\r', rest)
  | '\\' :: 't' :: rest => some ('\t', rest)
  | '\\' :: '0' :: rest => some ('\x00', rest)
  | '\\' :: c :: rest => some (c, rest)
  | c :: rest => some (c, rest)
  | [] => none

theorem toNat_lt_pow (c : Char) : c.toNat < 16 ^ (6 + 1) := by
  have valid := c.valid
  simp only [UInt32.isValidChar, Nat.isValidChar] at valid
  rw [Char.toNat]
  omega

theorem unescape_codePointEscape (c : Char) (rest : List Char) :
    unescape (codePointEscape c ++ rest) = some (c, rest) := by
  have digits : digitsValue (hexDigits (hexWidth 6 c.toNat) c.toNat) = c.toNat := by
    rw [digitsValue_hexDigits, Nat.mod_eq_of_lt (lt_pow_hexWidth (toNat_lt_pow c))]
  have inside : ∀ digit ∈ hexDigits (hexWidth 6 c.toNat) c.toNat,
      decide (digit ≠ '\x7d') = true := by
    intro digit held
    exact decide_eq_true fun same => mark_not_mem_hexDigits _ _ (same ▸ held)
  simp only [codePointEscape, List.cons_append, List.append_assoc, List.nil_append]
  rw [unescape, List.takeWhile_append_of_pos inside, List.dropWhile_append_of_pos inside]
  simp [digits]

theorem unescape_of_ne {c : Char} (plain : c ≠ '\\') (rest : List Char) :
    unescape (c :: rest) = some (c, rest) := by
  unfold unescape
  split <;> simp_all

theorem unescape_escape (c : Char) (rest : List Char) :
    unescape (escape c ++ rest) = some (c, rest) := by
  unfold escape
  split
  · rfl
  · rfl
  · rfl
  · rfl
  · rfl
  · rfl
  · next backslash _ _ _ _ =>
      split
      · exact unescape_of_ne backslash rest
      · exact unescape_codePointEscape c rest

theorem readsBack_escape (c : Char) : ReadsBack escape (fun _ => True) (fun _ => True) c :=
  .of_decode unescape (fun c _ rest _ => unescape_escape c rest) trivial

/-- A quote that belongs to a text is never written as such. -/
theorem head?_escape (c : Char) (rest : List Char) : (escape c ++ rest).head? ≠ some '"' := by
  unfold escape
  split
  case h_7 quote _ _ _ _ _ =>
    split
    · exact fun same => quote (Option.some.inj same)
    · simp [codePointEscape]
  all_goals simp

/-! ### Texts -/

theorem toList_quote (text : String) :
    (quote text).toList = ['"'] ++ (text.toList.flatMap escape ++ ['"']) :=
  String.toList_ofList

/-- A text between quotes can be read back, whatever comes behind it. -/
theorem readsBack_quote (text : String) :
    ReadsBack (fun text => (quote text).toList) (fun _ => True) (fun _ => True) text := by
  have inside : ReadsBack (List.flatMap escape) (fun text => ∀ c ∈ text, True)
      (fun rest => rest.head? = some '"') text.toList :=
    .many (fun _ _ _ => trivial) (fun _ _ => trivial) (fun c _ rest => head?_escape c rest)
      (fun _ _ => trivial) fun c _ => readsBack_escape c
  simp only [toList_quote]
  have marked := inside.before ['"'] fun _ => rfl
  exact .after ['"'] ((marked.comap fun _ _ => String.toList_inj.1).among fun _ _ _ _ => trivial)

end RecipeGraph.Text
