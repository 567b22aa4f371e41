/-
# Sets that keep the order of insertion

The locations a recipe imports are a set whose order shows: each member stands where it first
came. Adding a member again changes nothing.
-/

namespace RecipeGraph

/-- A set whose members stand in the order in which they first came. -/
structure OrderedSet (α : Type) where
  members : List α
deriving Repr, DecidableEq

namespace OrderedSet

variable {α : Type}

/-- The set with no members. -/
def empty : OrderedSet α := ⟨[]⟩

instance : Inhabited (OrderedSet α) := ⟨empty⟩

/-- How many members there are. -/
def size (set : OrderedSet α) : Nat :=
  set.members.length

/-- No member is listed twice. Every operation of this module keeps it so. -/
def Distinct (set : OrderedSet α) : Prop :=
  set.members.Nodup

variable [DecidableEq α]

/-- Whether a value is a member. -/
def contains (set : OrderedSet α) (value : α) : Bool :=
  decide (value ∈ set.members)

/-- Adds a value at the end, unless it is a member already. -/
def insert (set : OrderedSet α) (value : α) : OrderedSet α :=
  if value ∈ set.members then set else ⟨set.members ++ [value]⟩

/-- Adds every value of a list, one after the other. -/
def insertAll (set : OrderedSet α) : List α → OrderedSet α
  | [] => set
  | value :: rest => (set.insert value).insertAll rest

/-- Adds every member of the second set to the first. -/
def extend (set other : OrderedSet α) : OrderedSet α :=
  set.insertAll other.members

@[simp] theorem mem_insert (set : OrderedSet α) (value other : α) :
    other ∈ (set.insert value).members ↔ other = value ∨ other ∈ set.members := by
  unfold insert
  by_cases present : value ∈ set.members
  · rw [if_pos present]
    exact ⟨Or.inr, fun found => found.elim (fun same => same ▸ present) id⟩
  · rw [if_neg present]
    simp [or_comm]

theorem mem_insertAll (set : OrderedSet α) (values : List α) (other : α) :
    other ∈ (set.insertAll values).members ↔ other ∈ values ∨ other ∈ set.members := by
  induction values generalizing set with
  | nil => simp [insertAll]
  | cons value rest step => simp [insertAll, step, or_assoc, or_left_comm]

theorem Distinct.insert {set : OrderedSet α} (distinct : set.Distinct) (value : α) :
    (set.insert value).Distinct := by
  unfold OrderedSet.insert
  by_cases present : value ∈ set.members
  · rw [if_pos present]
    exact distinct
  · rw [if_neg present]
    exact List.nodup_append.2 ⟨distinct, by simp, by
      intro old found new singleton
      simp only [List.mem_singleton] at singleton
      subst singleton
      exact fun same => present (same ▸ found)⟩

theorem Distinct.insertAll {set : OrderedSet α} (distinct : set.Distinct) (values : List α) :
    (set.insertAll values).Distinct := by
  induction values generalizing set with
  | nil => exact distinct
  | cons value rest step => exact step (distinct.insert value)

end OrderedSet

end RecipeGraph
