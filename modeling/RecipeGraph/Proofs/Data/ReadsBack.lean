/-
# What can be read back

Items are written as texts, and texts are put behind each other. An item can be read back if no text
begins both with it and with another item, whatever comes behind the two: then the beginning of a
text tells the item, and where the item ends. Often this is so only as long as what comes behind is
known to begin in a certain way, as with a name that ends where no part of a name follows.

What is put together from items that can be read back can be read back as well, as long as each item
is followed by something that it may be followed by.
-/

import Mathlib.Data.List.Basic

namespace RecipeGraph

variable {α β γ : Type}

/-- Where an item is written and something suitable comes behind it, no other item that might be
written stands in its place. -/
def ReadsBack (write : α → List γ) (fits : α → Prop) (ahead : List γ → Prop) (item : α) : Prop :=
  ∀ ⦃other⦄, fits other → ∀ ⦃rest rest'⦄, ahead rest → ahead rest' →
    write item ++ rest = write other ++ rest' → item = other ∧ rest = rest'

namespace ReadsBack

variable {write : α → List γ} {fits : α → Prop} {ahead stop : List γ → Prop} {item : α}

theorem mono (reads : ReadsBack write fits ahead item) (sooner : ∀ rest, stop rest → ahead rest) :
    ReadsBack write fits stop item :=
  fun _ fit _ _ behind behind' same => reads fit (sooner _ behind) (sooner _ behind') same

/-- The fewer items might be written, the more of them can be read back. -/
theorem among {fewer : α → Prop} (reads : ReadsBack write fits ahead item)
    (less : ∀ other, fewer other → fits other) : ReadsBack write fewer ahead item :=
  fun other fit _ _ behind behind' same => reads (less other fit) behind behind' same

/-- What stands before every item does not matter. -/
theorem after (before : List γ) (reads : ReadsBack write fits ahead item) :
    ReadsBack (fun item => before ++ write item) fits ahead item := by
  intro other fit rest rest' behind behind' same
  rw [List.append_assoc, List.append_assoc] at same
  exact reads fit behind behind' (List.append_cancel_left same)

/-- What stands behind every item may be the reason why it can be read back. -/
theorem before (behind : List γ) (reads : ReadsBack write fits ahead item)
    (meets : ∀ rest, ahead (behind ++ rest)) :
    ReadsBack (fun item => write item ++ behind) fits (fun _ => True) item := by
  intro other fit rest rest' _ _ same
  rw [List.append_assoc, List.append_assoc] at same
  obtain ⟨here, later⟩ := reads fit (meets rest) (meets rest') same
  exact ⟨here, List.append_cancel_left later⟩

/-- Whatever a function finds at the beginning of a text can be read back. -/
theorem of_decode (decode : List γ → Option (α × List γ))
    (decodes : ∀ item, fits item → ∀ rest, ahead rest →
      decode (write item ++ rest) = some (item, rest))
    (fit : fits item) : ReadsBack write fits ahead item := by
  intro other fit' rest rest' behind behind' same
  have found := decodes item fit rest behind
  rw [same, decodes other fit' rest' behind'] at found
  obtain ⟨here, later⟩ := Prod.mk.inj (Option.some.inj found)
  exact ⟨here.symm, later.symm⟩

/-- What is written by way of something else that determines it. -/
theorem comap {f : β → α} (injective : Function.Injective f) {item : β}
    (reads : ReadsBack write fits ahead (f item)) :
    ReadsBack (fun item => write (f item)) (fun item => fits (f item)) ahead item := by
  intro other fit rest rest' behind behind' same
  obtain ⟨here, later⟩ := reads fit behind behind' same
  exact ⟨injective here, later⟩

/-- A run of accepted signs ends where the next sign is not accepted. -/
theorem run {keep : γ → Bool} {text : List γ} (kept : ∀ c ∈ text, keep c = true) :
    ReadsBack (fun text => text) (fun text => ∀ c ∈ text, keep c = true)
      (fun rest => ∀ c ∈ rest.head?, keep c = false) text := by
  refine of_decode (fun text => some (text.takeWhile keep, text.dropWhile keep)) ?_ kept
  intro text kept rest stops
  have none : rest.takeWhile keep = [] ∧ rest.dropWhile keep = rest := by
    cases rest with
    | nil => exact ⟨rfl, rfl⟩
    | cons c rest =>
        have refused : keep c = false := stops c rfl
        simp [refused]
  rw [List.takeWhile_append_of_pos kept, List.dropWhile_append_of_pos kept, none.1, none.2,
    List.append_nil]

section Many

variable (each : ∀ item, fits item → ∀ rest, ahead (write item ++ rest))
  (ends : ∀ rest, stop rest → ahead rest)
  (apart : ∀ item, fits item → ∀ rest, ¬ stop (write item ++ rest))

include each ends apart

/-- Items in a row, if each one may be followed by another one or by the end, and the end is never
taken for an item. -/
theorem many {items : List α} (fit : ∀ item ∈ items, fits item)
    (reads : ∀ item ∈ items, ReadsBack write fits ahead item) :
    ReadsBack (List.flatMap write) (fun items => ∀ item ∈ items, fits item) stop items := by
  have follows : ∀ items : List α, (∀ item ∈ items, fits item) → ∀ rest, stop rest →
      ahead (items.flatMap write ++ rest) := by
    intro items fit rest behind
    cases items with
    | nil => exact ends rest behind
    | cons item items =>
        rw [List.flatMap_cons, List.append_assoc]
        exact each item (fit item List.mem_cons_self) _
  induction items with
  | nil =>
      intro others fit' rest rest' behind _ same
      cases others with
      | nil => exact ⟨rfl, same⟩
      | cons other others =>
          rw [List.flatMap_nil, List.nil_append, List.flatMap_cons, List.append_assoc] at same
          exact absurd (same ▸ behind) (apart other (fit' other List.mem_cons_self) _)
  | cons item items step =>
      intro others fit' rest rest' behind behind' same
      rw [List.flatMap_cons, List.append_assoc] at same
      cases others with
      | nil =>
          rw [List.flatMap_nil, List.nil_append] at same
          exact absurd (same ▸ behind') (apart item (fit item List.mem_cons_self) _)
      | cons other others =>
          rw [List.flatMap_cons, List.append_assoc] at same
          obtain ⟨_, all⟩ := List.forall_mem_cons.1 fit
          obtain ⟨here', all'⟩ := List.forall_mem_cons.1 fit'
          obtain ⟨read, reads⟩ := List.forall_mem_cons.1 reads
          obtain ⟨rfl, later⟩ := read here' (follows items all rest behind)
            (follows others all' rest' behind') same
          obtain ⟨rfl, rfl⟩ := step all reads all' behind behind' later
          exact ⟨rfl, rfl⟩

end Many

end ReadsBack

/-- A list with separators is its first item, and then each other one behind a separator. -/
theorem intercalate_cons (separator first : List γ) (others : List (List γ)) :
    separator.intercalate (first :: others) = first ++ others.flatMap (separator ++ ·) := by
  induction others generalizing first with
  | nil => simp
  | cons second others step =>
      rw [List.intercalate_cons_cons, step, List.flatMap_cons]
      simp only [List.append_assoc]

namespace ReadsBack

section Listed

variable {write : α → List γ} {fits : α → Prop} {ahead : List γ → Prop} {comma mark : γ}
  {gap : List γ} (reads : ∀ item, fits item → ReadsBack write fits ahead item)
  (between : ∀ rest, ahead (comma :: rest)) (behind : ∀ rest, ahead (mark :: rest))
  (unlike : comma ≠ mark)

include reads between behind unlike

/-- Items each of which stands behind a separator, up to an end mark. -/
theorem separated {items : List α} (fit : ∀ item ∈ items, fits item) :
    ReadsBack (List.flatMap fun item => comma :: gap ++ write item)
      (fun items => ∀ item ∈ items, fits item) (fun rest => rest.head? = some mark) items := by
  refine many (fun _ _ _ => between _) (fun rest ended => ?_)
    (fun _ _ _ ended => unlike (Option.some.inj ended)) fit
    fun item held => (reads item (fit item held)).after (comma :: gap)
  obtain ⟨rest, rfl⟩ := List.head?_eq_some_iff.1 ended
  exact behind rest

/-- A list with separators and an end mark, if no item begins with the end mark. -/
theorem listed (begins : ∀ item, fits item → ∀ rest, (write item ++ rest).head? ≠ some mark)
    {items : List α} (fit : ∀ item ∈ items, fits item) :
    ReadsBack (fun items => (comma :: gap).intercalate (items.map write) ++ [mark])
      (fun items => ∀ item ∈ items, fits item) (fun _ => True) items := by
  intro others fit' rest rest' _ _ same
  have unrolled : ∀ first others rest,
      (comma :: gap).intercalate ((first :: others).map write) ++ [mark] ++ rest =
        write first ++
          (others.flatMap (fun item => comma :: gap ++ write item) ++ mark :: rest) := by
    intro first others rest
    rw [List.map_cons, intercalate_cons, List.flatMap_map, List.append_assoc, List.append_assoc]
    rfl
  have follows : ∀ (others : List α) rest,
      ahead (others.flatMap (fun item => comma :: gap ++ write item) ++ mark :: rest) := by
    intro others rest
    cases others with
    | nil => exact behind rest
    | cons other others => exact between _
  cases items with
  | nil =>
      cases others with
      | nil => exact ⟨rfl, (List.cons.inj same).2⟩
      | cons other others =>
          rw [unrolled] at same
          exact absurd (congrArg List.head? same.symm)
            (begins other (fit' other List.mem_cons_self) _)
  | cons item items =>
      rw [unrolled] at same
      cases others with
      | nil =>
          exact absurd (congrArg List.head? same) (begins item (fit item List.mem_cons_self) _)
      | cons other others =>
          rw [unrolled] at same
          obtain ⟨here, all⟩ := List.forall_mem_cons.1 fit
          obtain ⟨here', all'⟩ := List.forall_mem_cons.1 fit'
          obtain ⟨rfl, later⟩ :=
            reads item here here' (follows items rest) (follows others rest') same
          obtain ⟨rfl, ended⟩ := separated reads between behind unlike all all' rfl rfl later
          exact ⟨rfl, (List.cons.inj ended).2⟩

end Listed

end ReadsBack

end RecipeGraph
