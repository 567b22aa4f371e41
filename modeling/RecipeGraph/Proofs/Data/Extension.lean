/-
# Extending a map by one that is built meanwhile

A map may be extended by a second map when that one is finished, or everything may be written into
the first map at once. Both come to the same, entry by entry: a key stands where it was first
written, in the one map or in the other, and has the value written last.
-/

import RecipeGraph.OrderedSet
import RecipeGraph.Proofs.Data.OrderedMap

namespace RecipeGraph

namespace OrderedMap

variable {κ ν μ : Type}

theorem Distinct.mapValues {map : OrderedMap κ ν} (distinct : map.Distinct) (f : ν → μ) :
    (map.mapValues f).Distinct := by
  rw [Distinct, keys_mapValues]
  exact distinct

variable [DecidableEq κ]

/-! ### Writes that can be exchanged -/

private theorem write_write_self (key : κ) (first second : ν) (entries : List (κ × ν)) :
    write key second (write key first entries) = write key second entries := by
  induction entries with
  | nil => simp [write]
  | cons entry rest step =>
      obtain ⟨here, old⟩ := entry
      by_cases same : here = key <;> simp [write, same, step]

/-- Of two writes to one key the second one counts. -/
theorem insert_insert_self (map : OrderedMap κ ν) (key : κ) (first second : ν) :
    (map.insert key first).insert key second = map.insert key second :=
  congrArg OrderedMap.mk (write_write_self key first second map.entries)

private theorem write_comm {key other : κ} (apart : key ≠ other) (value value' : ν)
    {entries : List (κ × ν)} (present : key ∈ entries.map Prod.fst) :
    write other value' (write key value entries) = write key value (write other value' entries) := by
  induction entries with
  | nil => nomatch present
  | cons entry rest step =>
      obtain ⟨here, old⟩ := entry
      by_cases same : here = key
      · subst same
        simp [write, apart]
      · have later : key ∈ rest.map Prod.fst := by
          simpa [Ne.symm same] using present
        by_cases same' : here = other
        · simp [write, same', Ne.symm apart]
        · simp [write, same, same', step later]

/-- A write to a key that is there already may be put off behind a write to another key. -/
theorem insert_comm {map : OrderedMap κ ν} {key other : κ} (apart : key ≠ other) (value value' : ν)
    (present : key ∈ map.keys) :
    (map.insert key value).insert other value' = (map.insert other value').insert key value :=
  congrArg OrderedMap.mk (write_comm apart value value' present)

/-- A write to a key that is there already may be put off behind any writes to other keys. -/
theorem insertAll_insert_comm {map : OrderedMap κ ν} {key : κ} (value : ν) {pairs : List (κ × ν)}
    (present : key ∈ map.keys) (absent : key ∉ pairs.map Prod.fst) :
    (map.insert key value).insertAll pairs = (map.insertAll pairs).insert key value := by
  induction pairs generalizing map with
  | nil => rfl
  | cons pair rest step =>
      obtain ⟨other, value'⟩ := pair
      rw [List.map_cons, List.mem_cons, not_or] at absent
      rw [insertAll, insertAll, insert_comm absent.1 value value' present]
      exact step (mem_keys_insert.2 (.inr present)) absent.2

/-! ### One map written into another -/

private theorem insertAll_write (map : OrderedMap κ ν) (key : κ) (value : ν) {entries : List (κ × ν)}
    (distinct : (entries.map Prod.fst).Nodup) :
    map.insertAll (write key value entries) = (map.insertAll entries).insert key value := by
  induction entries generalizing map with
  | nil => rfl
  | cons entry rest step =>
      obtain ⟨here, old⟩ := entry
      rw [List.map_cons, List.nodup_cons] at distinct
      rw [write]
      by_cases same : here = key
      · subst same
        have present : here ∈ (map.insert here old).keys := mem_keys_insert.2 (.inl rfl)
        rw [if_pos rfl, insertAll, insertAll, ← insertAll_insert_comm value present distinct.1,
          insert_insert_self]
      · rw [if_neg same, insertAll, insertAll, step _ distinct.2]

/-- What is written into a map shows at once in the map that it extends. -/
theorem extend_insert (map : OrderedMap κ ν) {other : OrderedMap κ ν} (distinct : other.Distinct)
    (key : κ) (value : ν) :
    map.extend (other.insert key value) = (map.extend other).insert key value :=
  insertAll_write map key value distinct

theorem extend_insertAll (map : OrderedMap κ ν) {other : OrderedMap κ ν} (distinct : other.Distinct)
    (pairs : List (κ × ν)) :
    map.extend (other.insertAll pairs) = (map.extend other).insertAll pairs := by
  induction pairs generalizing other with
  | nil => rfl
  | cons pair rest step =>
      rw [insertAll, step (distinct.insert _ _), extend_insert map distinct, insertAll]

/-- Extending by a map that is extended itself comes to extending twice. -/
theorem extend_extend (map : OrderedMap κ ν) {other : OrderedMap κ ν} (distinct : other.Distinct)
    (last : OrderedMap κ ν) : map.extend (other.extend last) = (map.extend other).extend last :=
  extend_insertAll map distinct last.entries

private theorem get?_insertAll (map : OrderedMap κ ν) {pairs : List (κ × ν)}
    (distinct : (pairs.map Prod.fst).Nodup) (key : κ) :
    (map.insertAll pairs).get? key = (lookup key pairs).or (map.get? key) := by
  induction pairs generalizing map with
  | nil => rfl
  | cons pair rest step =>
      obtain ⟨here, value⟩ := pair
      rw [List.map_cons, List.nodup_cons] at distinct
      rw [insertAll, step _ distinct.2, get?_insert, lookup]
      by_cases same : here = key
      · subst same
        have absent : lookup here rest = none := by
          cases found : lookup here rest with
          | none => rfl
          | some value =>
              have held : (here, value) ∈ (OrderedMap.mk rest).entries := mem_of_get? found
              exact absurd (List.mem_map_of_mem held) distinct.1
        rw [if_pos rfl, if_pos rfl, absent, Option.none_or, Option.some_or]
      · rw [if_neg same, if_neg same]

/-- In an extended map a key is looked up in the second map first. -/
theorem get?_extend (map : OrderedMap κ ν) {other : OrderedMap κ ν} (distinct : other.Distinct)
    (key : κ) : (map.extend other).get? key = (other.get? key).or (map.get? key) :=
  get?_insertAll map distinct key

/-- A map is what comes of writing its entries into nothing. -/
theorem empty_extend {map : OrderedMap κ ν} (distinct : map.Distinct) : empty.extend map = map :=
  congrArg OrderedMap.mk (entries_insertAll_of_absent distinct fun _ _ => List.not_mem_nil)

theorem get?_eq_none {map : OrderedMap κ ν} {key : κ} (absent : key ∉ map.keys) :
    map.get? key = none := by
  cases found : map.get? key with
  | none => rfl
  | some value => exact absurd (List.mem_map_of_mem (mem_of_get? found)) absent

/-! ### Values changed one by one -/

private theorem map_write (f : ν → μ) (key : κ) (value : ν) (entries : List (κ × ν)) :
    (write key value entries).map (fun entry => (entry.1, f entry.2)) =
      write key (f value) (entries.map fun entry => (entry.1, f entry.2)) := by
  induction entries with
  | nil => rfl
  | cons entry rest step =>
      obtain ⟨here, old⟩ := entry
      by_cases same : here = key <;> simp [write, same, step]

theorem mapValues_insert (f : ν → μ) (map : OrderedMap κ ν) (key : κ) (value : ν) :
    (map.insert key value).mapValues f = (map.mapValues f).insert key (f value) :=
  congrArg OrderedMap.mk (map_write f key value map.entries)

theorem mapValues_insertAll (f : ν → μ) (map : OrderedMap κ ν) (pairs : List (κ × ν)) :
    (map.insertAll pairs).mapValues f =
      (map.mapValues f).insertAll (pairs.map fun pair => (pair.1, f pair.2)) := by
  induction pairs generalizing map with
  | nil => rfl
  | cons pair rest step =>
      rw [insertAll, step, mapValues_insert]
      rfl

theorem get?_mapValues (f : ν → μ) (map : OrderedMap κ ν) (key : κ) :
    (map.mapValues f).get? key = (map.get? key).map f := by
  obtain ⟨entries⟩ := map
  show lookup key (entries.map _) = (lookup key entries).map f
  induction entries with
  | nil => rfl
  | cons entry rest step =>
      obtain ⟨here, value⟩ := entry
      by_cases same : here = key
      · simp [lookup, same]
      · simpa [lookup, same] using step

end OrderedMap

namespace OrderedSet

variable {α : Type} [DecidableEq α]

theorem insertAll_append (set : OrderedSet α) (first second : List α) :
    set.insertAll (first ++ second) = (set.insertAll first).insertAll second := by
  induction first generalizing set with
  | nil => rfl
  | cons value rest step => exact step _

/-- A set is what comes of adding its members to nothing. -/
theorem empty_extend {set : OrderedSet α} (distinct : set.Distinct) : empty.extend set = set := by
  obtain ⟨values⟩ := set
  suffices grown : ∀ before : List α, (before ++ values).Nodup →
      (OrderedSet.mk before).insertAll values = ⟨before ++ values⟩ from grown [] distinct
  induction values with
  | nil => exact fun before _ => congrArg OrderedSet.mk (List.append_nil before).symm
  | cons value rest step =>
      intro before nodup
      have fresh : value ∉ before := fun held =>
        (List.nodup_append.1 nodup).2.2 value held value List.mem_cons_self rfl
      rw [insertAll, insert, if_neg fresh, step (List.nodup_cons.1 distinct).2 (before ++ [value])]
      · rw [List.append_assoc, List.singleton_append]
      · rw [List.append_assoc, List.singleton_append]
        exact nodup

/-- Adding a set with one more member adds that member last. -/
theorem extend_insert (set other : OrderedSet α) (value : α) :
    set.extend (other.insert value) = (set.extend other).insert value := by
  by_cases present : value ∈ other.members
  · have held : value ∈ (set.extend other).members := (mem_insertAll _ _ _).2 (.inl present)
    rw [insert, if_pos present, insert, if_pos held]
  · rw [insert, if_neg present]
    exact insertAll_append set other.members [value]

theorem extend_extend (set first second : OrderedSet α) :
    (set.extend first).extend second = set.extend (first.extend second) := by
  obtain ⟨values⟩ := second
  show (set.extend first).insertAll values = set.extend (first.insertAll values)
  induction values generalizing first with
  | nil => rfl
  | cons value rest step =>
      rw [insertAll, ← extend_insert, step]
      rfl

@[simp] theorem extend_empty (set : OrderedSet α) : set.extend .empty = set := rfl

theorem mem_extend (set other : OrderedSet α) (value : α) :
    value ∈ (set.extend other).members ↔ value ∈ other.members ∨ value ∈ set.members :=
  mem_insertAll _ _ _

end OrderedSet

end RecipeGraph
