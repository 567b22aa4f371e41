/-
# The pieces of a text

A text is cut at every separator. Joined paths are cut at dots and file paths at slashes; what an
empty piece means is for them to say, so every one of them is kept here.
-/

namespace RecipeGraph.Text

/-- Cuts a text at every separator. A text with `n` separators gives `n + 1` pieces. -/
def pieces (separator : Char) : List Char → List (List Char)
  | [] => [[]]
  | c :: rest =>
    if c = separator then
      [] :: pieces separator rest
    else
      match pieces separator rest with
      | [] => [[c]]
      | piece :: others => (c :: piece) :: others

/-- There is always a first piece. -/
theorem pieces_ne_nil (separator : Char) (text : List Char) : pieces separator text ≠ [] := by
  cases text with
  | nil => simp [pieces]
  | cons c rest =>
      simp only [pieces]
      split
      · simp
      · split <;> simp

/-- No piece holds the separator. -/
theorem separator_not_mem_piece {separator : Char} {text piece : List Char}
    (h : piece ∈ pieces separator text) : separator ∉ piece := by
  induction text generalizing piece with
  | nil =>
      simp only [pieces, List.mem_singleton] at h
      simp [h]
  | cons c rest step =>
      simp only [pieces] at h
      split at h
      · rcases List.mem_cons.1 h with same | later
        · simp [same]
        · exact step later
      · rename_i other
        split at h
        · rename_i none
          exact absurd none (pieces_ne_nil separator rest)
        · rename_i first others found
          rcases List.mem_cons.1 h with same | later
          · subst same
            simp only [List.mem_cons, not_or]
            exact ⟨fun same => other same.symm, step (by simp [found])⟩
          · exact step (by simp [found, later])

/-- Cutting a text is splitting the list of its characters at the separator. -/
theorem pieces_eq_splitOn (separator : Char) (text : List Char) :
    pieces separator text = text.splitOn separator := by
  induction text with
  | nil => rfl
  | cons c rest step =>
      obtain ⟨first, others, cut⟩ := List.exists_cons_of_ne_nil (pieces_ne_nil separator rest)
      rw [List.splitOn_cons_eq_if_modifyHead, ← step, pieces, cut, List.modifyHead_cons]
      simp only [beq_iff_eq]

end RecipeGraph.Text
