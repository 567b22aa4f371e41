/-
# Maps that keep the order of insertion

The registries of a compiled level are printed in the order in which they were filled, so their
order belongs to their value. A map is the list of its entries, oldest first. Writing to a key that
is already present keeps the place of its entry and replaces the value; a new key goes to the end.

The view of a map is the pair of its list of keys and its look-up function; each operation below
comes with one lemma for each half of that view.
-/

namespace RecipeGraph

/-- A map from keys to values whose entries stand in the order in which their keys first came. -/
structure OrderedMap (κ ν : Type) where
  entries : List (κ × ν)
deriving Repr

namespace OrderedMap

variable {κ ν μ : Type}

/-- The map with no entries. -/
def empty : OrderedMap κ ν := ⟨[]⟩

instance : Inhabited (OrderedMap κ ν) := ⟨empty⟩

instance [DecidableEq κ] [DecidableEq ν] : DecidableEq (OrderedMap κ ν) := fun first second =>
  if h : first.entries = second.entries then
    isTrue (by cases first; cases second; cases h; rfl)
  else
    isFalse (fun same => h (congrArg entries same))

/-- The keys, oldest first. -/
def keys (map : OrderedMap κ ν) : List κ :=
  map.entries.map Prod.fst

/-- The values, in the order of their keys. -/
def values (map : OrderedMap κ ν) : List ν :=
  map.entries.map Prod.snd

/-- How many entries there are. -/
def size (map : OrderedMap κ ν) : Nat :=
  map.entries.length

/-- Whether there is no entry. -/
def isEmpty (map : OrderedMap κ ν) : Bool :=
  map.entries.isEmpty

/-- No key occurs twice. Every operation of this module keeps it so. -/
def Distinct (map : OrderedMap κ ν) : Prop :=
  map.keys.Nodup

section Lookup

variable [DecidableEq κ]

/-- The value of the first entry with the given key. -/
def lookup (key : κ) : List (κ × ν) → Option ν
  | [] => none
  | (here, value) :: rest => if here = key then some value else lookup key rest

/-- The value stored under a key. -/
def get? (map : OrderedMap κ ν) (key : κ) : Option ν :=
  lookup key map.entries

/-- Whether a key is present. -/
def contains (map : OrderedMap κ ν) (key : κ) : Bool :=
  (map.get? key).isSome

/-- Overwrites the first entry with the given key, or appends a new one. -/
def write (key : κ) (value : ν) : List (κ × ν) → List (κ × ν)
  | [] => [(key, value)]
  | (here, old) :: rest =>
    if here = key then (here, value) :: rest else (here, old) :: write key value rest

/-- Stores a value under a key, in the old place if the key is already present. -/
def insert (map : OrderedMap κ ν) (key : κ) (value : ν) : OrderedMap κ ν :=
  ⟨write key value map.entries⟩

/-- Stores every entry of a list, one after the other. -/
def insertAll (map : OrderedMap κ ν) : List (κ × ν) → OrderedMap κ ν
  | [] => map
  | (key, value) :: rest => (map.insert key value).insertAll rest

/-- Stores every entry of the second map into the first. -/
def extend (map other : OrderedMap κ ν) : OrderedMap κ ν :=
  map.insertAll other.entries

/-- The map of a list of pairs; a key that comes twice keeps its first place and its last value. -/
def ofList (pairs : List (κ × ν)) : OrderedMap κ ν :=
  empty.insertAll pairs

end Lookup

/-- Applies a function to every value and keeps the keys and their order. -/
def mapValues (f : ν → μ) (map : OrderedMap κ ν) : OrderedMap κ μ :=
  ⟨map.entries.map fun entry => (entry.1, f entry.2)⟩

/-! ### What each operation does to the keys and to the look-up -/

@[simp] theorem keys_empty : (empty : OrderedMap κ ν).keys = [] := rfl

theorem distinct_empty : (empty : OrderedMap κ ν).Distinct :=
  List.nodup_nil

variable [DecidableEq κ]

@[simp] theorem get?_empty (key : κ) : (empty : OrderedMap κ ν).get? key = none := rfl

private theorem lookup_write (key other : κ) (value : ν) (entries : List (κ × ν)) :
    lookup other (write key value entries) =
      if key = other then some value else lookup other entries := by
  induction entries with
  | nil => simp [write, lookup]
  | cons entry rest step =>
      obtain ⟨here, old⟩ := entry
      by_cases same : here = key
      · subst same
        by_cases asked : here = other <;> simp [write, lookup, asked]
      · by_cases asked : here = other
        · subst asked
          simp [write, lookup, same, Ne.symm same]
        · simp [write, lookup, same, asked, step]

/-- Reading after a write gives the value written, and leaves every other key alone. -/
theorem get?_insert (map : OrderedMap κ ν) (key other : κ) (value : ν) :
    (map.insert key value).get? other = if key = other then some value else map.get? other :=
  lookup_write key other value map.entries

@[simp] theorem get?_insert_self (map : OrderedMap κ ν) (key : κ) (value : ν) :
    (map.insert key value).get? key = some value := by
  simp [get?_insert]

private theorem fst_write (key : κ) (value : ν) (entries : List (κ × ν)) :
    (write key value entries).map Prod.fst =
      if key ∈ entries.map Prod.fst then entries.map Prod.fst
      else entries.map Prod.fst ++ [key] := by
  induction entries with
  | nil => simp [write]
  | cons entry rest step =>
      obtain ⟨here, old⟩ := entry
      by_cases same : here = key
      · simp [write, same]
      · have reversed : ¬key = here := Ne.symm same
        simp only [write, if_neg same, List.map_cons, step, List.mem_cons, reversed, false_or]
        by_cases later : key ∈ rest.map Prod.fst
        · rw [if_pos later, if_pos later]
        · rw [if_neg later, if_neg later, List.cons_append]

/-- A write keeps the order of the keys it finds and puts a new key last. -/
theorem keys_insert (map : OrderedMap κ ν) (key : κ) (value : ν) :
    (map.insert key value).keys = if key ∈ map.keys then map.keys else map.keys ++ [key] :=
  fst_write key value map.entries

theorem Distinct.insert {map : OrderedMap κ ν} (distinct : map.Distinct) (key : κ) (value : ν) :
    (map.insert key value).Distinct := by
  unfold Distinct
  rw [keys_insert]
  by_cases present : key ∈ map.keys
  · rw [if_pos present]
    exact distinct
  · rw [if_neg present]
    exact List.nodup_append.2 ⟨distinct, by simp, by
      intro old found new singleton
      simp only [List.mem_singleton] at singleton
      subst singleton
      exact fun same => present (same ▸ found)⟩

theorem Distinct.insertAll {map : OrderedMap κ ν} (distinct : map.Distinct)
    (pairs : List (κ × ν)) : (map.insertAll pairs).Distinct := by
  induction pairs generalizing map with
  | nil => exact distinct
  | cons pair rest step => exact step (distinct.insert pair.1 pair.2)

private theorem lookup_eq_none_iff (key : κ) (entries : List (κ × ν)) :
    lookup key entries = none ↔ key ∉ entries.map Prod.fst := by
  induction entries with
  | nil => simp [lookup]
  | cons entry rest step =>
      obtain ⟨here, value⟩ := entry
      by_cases same : here = key
      · simp [lookup, same]
      · simp only [lookup, if_neg same, step, List.map_cons, List.mem_cons, not_or]
        exact ⟨fun absent => ⟨Ne.symm same, absent⟩, fun absent => absent.2⟩

/-- A key has a value exactly when it is among the keys. -/
theorem contains_iff (map : OrderedMap κ ν) (key : κ) :
    map.contains key = true ↔ key ∈ map.keys := by
  have none_iff := lookup_eq_none_iff key map.entries
  unfold contains get? keys
  cases found : lookup key map.entries with
  | none => simp [none_iff.1 found]
  | some value =>
      have : key ∈ map.entries.map Prod.fst := by
        refine Decidable.byContradiction fun absent => ?_
        rw [none_iff.2 absent] at found
        cases found
      simp [this]

end OrderedMap

end RecipeGraph
