/-
# What insertion-ordered maps hold

The laws of `OrderedMap` beside its definition speak of keys and look-up. The registries of a level
are also walked entry by entry, and two of them are compared entry by entry, so this module says
which entries a map holds after each operation, and that maps whose entries correspond still do so
after the same operation on both.
-/

import Mathlib.Data.List.Forall2
import Mathlib.Logic.Relator
import RecipeGraph.OrderedMap

namespace RecipeGraph.OrderedMap

variable {κ ν μ κ' ν' μ' : Type}

/-- Each item of the second of two related lists is related to one of the first. -/
theorem exists_related_of_mem {related : ν → ν' → Prop} {items : List ν} {others : List ν'}
    (both : List.Forall₂ related items others) {other : ν'} (held : other ∈ others) :
    ∃ item ∈ items, related item other := by
  induction both with
  | nil => nomatch held
  | @cons item other' rest rest' here _ step =>
      rcases List.mem_cons.1 held with rfl | later
      · exact ⟨item, List.mem_cons_self, here⟩
      · obtain ⟨found, inside, same⟩ := step later
        exact ⟨found, List.mem_cons_of_mem _ inside, same⟩

theorem keys_mapValues (f : ν → μ) (map : OrderedMap κ ν) : (map.mapValues f).keys = map.keys := by
  simp [keys, mapValues]

theorem values_mapValues (f : ν → μ) (map : OrderedMap κ ν) :
    (map.mapValues f).values = map.values.map f := by
  simp [values, mapValues]

theorem mem_values {map : OrderedMap κ ν} {value : ν} :
    value ∈ map.values ↔ ∃ key, (key, value) ∈ map.entries := by
  simp [values]

/-- A value that is stored under a key of its own has that key among the keys. -/
theorem key_mem_keys {map : OrderedMap κ ν} {key : ν → κ}
    (keyed : ∀ entry ∈ map.entries, entry.1 = key entry.2) {value : ν} (held : value ∈ map.values) :
    key value ∈ map.keys := by
  obtain ⟨here, inside⟩ := mem_values.1 held
  have same : here = key value := keyed _ inside
  exact same ▸ List.mem_map_of_mem inside

section Entries

variable [DecidableEq κ]

private theorem mem_of_lookup {key : κ} {value : ν} {entries : List (κ × ν)}
    (found : lookup key entries = some value) : (key, value) ∈ entries := by
  induction entries with
  | nil => cases found
  | cons entry rest step =>
      obtain ⟨here, old⟩ := entry
      simp only [lookup] at found
      split at found
      · next same =>
          cases found
          subst same
          exact List.mem_cons_self
      · exact List.mem_cons_of_mem _ (step found)

/-- What is found under a key is an entry of the map. -/
theorem mem_of_get? {map : OrderedMap κ ν} {key : κ} {value : ν}
    (found : map.get? key = some value) : (key, value) ∈ map.entries :=
  mem_of_lookup found

theorem mem_values_of_get? {map : OrderedMap κ ν} {key : κ} {value : ν}
    (found : map.get? key = some value) : value ∈ map.values :=
  mem_values.2 ⟨key, mem_of_get? found⟩

theorem exists_get?_of_mem_keys {map : OrderedMap κ ν} {key : κ} (present : key ∈ map.keys) :
    ∃ value, map.get? key = some value :=
  Option.isSome_iff_exists.1 ((map.contains_iff key).2 present)

private theorem mem_write {key : κ} {value : ν} {entries : List (κ × ν)} {entry : κ × ν}
    (held : entry ∈ write key value entries) : entry = (key, value) ∨ entry ∈ entries := by
  induction entries with
  | nil => exact .inl (List.mem_singleton.1 held)
  | cons first rest step =>
      obtain ⟨here, old⟩ := first
      simp only [write] at held
      split at held
      · next same =>
          subst same
          exact (List.mem_cons.1 held).imp id (List.mem_cons_of_mem _)
      · rcases List.mem_cons.1 held with first | later
        · exact .inr (first ▸ List.mem_cons_self)
        · exact (step later).imp id (List.mem_cons_of_mem _)

/-- An insertion brings one entry, and every other entry was there before. -/
theorem mem_entries_insert {map : OrderedMap κ ν} {key : κ} {value : ν} {entry : κ × ν}
    (held : entry ∈ (map.insert key value).entries) :
    entry = (key, value) ∨ entry ∈ map.entries :=
  mem_write held

/-- A map whose values have keys of their own stays so if another one is stored under its own key. -/
theorem keyed_insert {map : OrderedMap κ ν} {key : ν → κ}
    (keyed : ∀ entry ∈ map.entries, entry.1 = key entry.2) (value : ν) :
    ∀ entry ∈ (map.insert (key value) value).entries, entry.1 = key entry.2 := by
  intro entry held
  rcases mem_entries_insert held with rfl | old
  · rfl
  · exact keyed entry old

theorem mem_values_insert {map : OrderedMap κ ν} {key : κ} {value other : ν}
    (held : other ∈ (map.insert key value).values) : other = value ∨ other ∈ map.values := by
  obtain ⟨here, held⟩ := mem_values.1 held
  rcases mem_entries_insert held with same | old
  · exact .inl (congrArg Prod.snd same)
  · exact .inr (mem_values.2 ⟨here, old⟩)

theorem mem_keys_insert {map : OrderedMap κ ν} {key other : κ} {value : ν} :
    other ∈ (map.insert key value).keys ↔ other = key ∨ other ∈ map.keys := by
  rw [keys_insert]
  by_cases present : key ∈ map.keys
  · rw [if_pos present]
    exact ⟨.inr, fun held => held.elim (fun same => same ▸ present) id⟩
  · rw [if_neg present]
    simp [or_comm]

private theorem mem_write_of_ne {key : κ} {value : ν} {entries : List (κ × ν)} {entry : κ × ν}
    (held : entry ∈ entries) (other : entry.1 ≠ key) : entry ∈ write key value entries := by
  induction entries with
  | nil => nomatch held
  | cons first rest step =>
      rw [write]
      rcases List.mem_cons.1 held with rfl | later
      · rw [if_neg other]
        exact List.mem_cons_self
      · split
        · exact List.mem_cons_of_mem _ later
        · exact List.mem_cons_of_mem _ (step later)

/-- An insertion leaves the entries of all other keys. -/
theorem mem_entries_insert_of_ne {map : OrderedMap κ ν} {key : κ} {value : ν} {entry : κ × ν}
    (held : entry ∈ map.entries) (other : entry.1 ≠ key) :
    entry ∈ (map.insert key value).entries :=
  mem_write_of_ne held other

private theorem write_of_absent {key : κ} {value : ν} {entries : List (κ × ν)}
    (absent : key ∉ entries.map Prod.fst) : write key value entries = entries ++ [(key, value)] := by
  induction entries with
  | nil => rfl
  | cons entry rest step =>
      obtain ⟨here, old⟩ := entry
      simp only [List.map_cons, List.mem_cons, not_or] at absent
      rw [write, if_neg (Ne.symm absent.1), step absent.2, List.cons_append]

/-- A new key goes to the end. -/
theorem entries_insert_of_absent {map : OrderedMap κ ν} {key : κ} {value : ν}
    (absent : key ∉ map.keys) : (map.insert key value).entries = map.entries ++ [(key, value)] :=
  write_of_absent absent

theorem values_insert_of_absent {map : OrderedMap κ ν} {key : κ} {value : ν}
    (absent : key ∉ map.keys) : (map.insert key value).values = map.values ++ [value] := by
  rw [values, entries_insert_of_absent absent, List.map_append]
  rfl

/-! ### Several insertions -/

theorem insertAll_append (map : OrderedMap κ ν) (first second : List (κ × ν)) :
    map.insertAll (first ++ second) = (map.insertAll first).insertAll second := by
  induction first generalizing map with
  | nil => rfl
  | cons pair rest step => exact step _

theorem mem_entries_insertAll {map : OrderedMap κ ν} {pairs : List (κ × ν)} {entry : κ × ν}
    (held : entry ∈ (map.insertAll pairs).entries) : entry ∈ pairs ∨ entry ∈ map.entries := by
  induction pairs generalizing map with
  | nil => exact .inr held
  | cons pair rest step =>
      rcases step held with later | before
      · exact .inl (List.mem_cons_of_mem _ later)
      · rcases mem_entries_insert before with rfl | old
        · exact .inl List.mem_cons_self
        · exact .inr old

theorem mem_entries_insertAll_of_absent {map : OrderedMap κ ν} {pairs : List (κ × ν)}
    {entry : κ × ν} (held : entry ∈ map.entries) (absent : entry.1 ∉ pairs.map Prod.fst) :
    entry ∈ (map.insertAll pairs).entries := by
  induction pairs generalizing map with
  | nil => exact held
  | cons pair rest step =>
      rw [List.map_cons, List.mem_cons, not_or] at absent
      exact step (mem_entries_insert_of_ne held absent.1) absent.2

theorem mem_values_extend {map other : OrderedMap κ ν} {value : ν}
    (held : value ∈ (map.extend other).values) : value ∈ other.values ∨ value ∈ map.values := by
  obtain ⟨here, held⟩ := mem_values.1 held
  exact (mem_entries_insertAll held).imp (fun new => mem_values.2 ⟨here, new⟩)
    (fun old => mem_values.2 ⟨here, old⟩)

theorem mem_keys_insertAll {map : OrderedMap κ ν} {pairs : List (κ × ν)} {key : κ} :
    key ∈ (map.insertAll pairs).keys ↔ key ∈ pairs.map Prod.fst ∨ key ∈ map.keys := by
  induction pairs generalizing map with
  | nil => simp [insertAll]
  | cons pair rest step => simp [insertAll, step, mem_keys_insert, or_assoc, or_left_comm]

/-- Entries with new keys go to the end in their order. -/
theorem entries_insertAll_of_absent {map : OrderedMap κ ν} {pairs : List (κ × ν)}
    (distinct : (pairs.map Prod.fst).Nodup) (absent : ∀ key ∈ pairs.map Prod.fst, key ∉ map.keys) :
    (map.insertAll pairs).entries = map.entries ++ pairs := by
  induction pairs generalizing map with
  | nil => simp [insertAll]
  | cons pair rest step =>
      obtain ⟨key, value⟩ := pair
      simp only [List.map_cons, List.nodup_cons] at distinct
      have here : key ∉ map.keys := absent key (by simp)
      have later : ∀ other ∈ rest.map Prod.fst, other ∉ (map.insert key value).keys := by
        intro other held found
        rcases mem_keys_insert.1 found with same | before
        · exact distinct.1 (same ▸ held)
        · exact absent other (by simp [List.mem_map.1 held]) before
      rw [insertAll, step distinct.2 later, entries_insert_of_absent here, List.append_assoc,
        List.singleton_append]

section Listed

variable {key : ν → κ} {values : List ν}

/-- Nothing is held but the values that are listed, each under its own key. -/
theorem mem_entries_ofList {entry : κ × ν}
    (held : entry ∈ (ofList (values.map fun value => (key value, value))).entries) :
    entry.2 ∈ values ∧ entry.1 = key entry.2 := by
  rcases mem_entries_insertAll held with listed | nothing
  · obtain ⟨value, inside, rfl⟩ := List.mem_map.1 listed
    exact ⟨inside, rfl⟩
  · cases nothing

theorem mem_values_ofList {value : ν}
    (held : value ∈ (ofList (values.map fun value => (key value, value))).values) :
    value ∈ values := by
  obtain ⟨_, stored⟩ := mem_values.1 held
  exact (mem_entries_ofList stored).1

theorem mem_keys_ofList {here : κ} :
    here ∈ (ofList (values.map fun value => (key value, value))).keys ↔
      ∃ value ∈ values, key value = here := by
  rw [ofList, mem_keys_insertAll]
  simp [keys, empty]

/-- Values that are stored under keys of their own, all different, are kept as they are listed. -/
theorem entries_ofList_of_nodup (distinct : (values.map key).Nodup) :
    (ofList (values.map fun value => (key value, value))).entries =
      values.map fun value => (key value, value) := by
  refine entries_insertAll_of_absent ?_ fun _ _ => List.not_mem_nil
  rw [List.map_map]
  exact distinct

end Listed

/-- Of several values written to a key the last one is read, or else the value from before. -/
theorem get?_insertAll_eq_find? (map : OrderedMap κ ν) (pairs : List (κ × ν)) (key : κ) :
    (map.insertAll pairs).get? key =
      ((pairs.reverse.find? fun pair => pair.1 == key).map Prod.snd).or (map.get? key) := by
  induction pairs generalizing map with
  | nil => rfl
  | cons pair rest step =>
      rw [insertAll, step, get?_insert, List.reverse_cons, List.find?_append, Option.map_or,
        Option.or_assoc]
      by_cases same : pair.1 = key
      · simp [same]
      · simp [same]

/-- The keys after an operation depend on the keys alone. -/
theorem keys_insert_congr {map : OrderedMap κ ν} {other : OrderedMap κ μ}
    (same : map.keys = other.keys) (key : κ) (value : ν) (value' : μ) :
    (map.insert key value).keys = (other.insert key value').keys := by
  rw [keys_insert, keys_insert, same]

theorem keys_extend_congr {map map' : OrderedMap κ ν} {other other' : OrderedMap κ μ}
    (same : map.keys = other.keys) (same' : map'.keys = other'.keys) :
    (map.extend map').keys = (other.extend other').keys := by
  obtain ⟨pairs⟩ := map'
  obtain ⟨others⟩ := other'
  show (map.insertAll pairs).keys = (other.insertAll others).keys
  change pairs.map Prod.fst = others.map Prod.fst at same'
  induction pairs generalizing map other others with
  | nil =>
      cases others with
      | nil => exact same
      | cons _ _ => cases same'
  | cons pair rest step =>
      cases others with
      | nil => cases same'
      | cons pair' rest' =>
          simp only [List.map_cons, List.cons.injEq] at same'
          have here : (map.insert pair.1 pair.2).keys = (other.insert pair'.1 pair'.2).keys :=
            same'.1 ▸ keys_insert_congr same pair.1 pair.2 pair'.2
          exact step here rest' same'.2

end Entries

/-! ### Maps that correspond entry by entry -/

/-- Two maps have as many entries, and in the order of the entries their keys are related and their
values are. -/
def Corresponds (keyed : κ → κ' → Prop) (valued : ν → ν' → Prop) (map : OrderedMap κ ν)
    (other : OrderedMap κ' ν') : Prop :=
  List.Forall₂ (fun entry entry' => keyed entry.1 entry'.1 ∧ valued entry.2 entry'.2)
    map.entries other.entries

namespace Corresponds

variable {keyed : κ → κ' → Prop} {valued : ν → ν' → Prop} {map : OrderedMap κ ν}
  {other : OrderedMap κ' ν'}

theorem empty : Corresponds keyed valued .empty .empty :=
  .nil

theorem imp_of_mem {keyed' : κ → κ' → Prop} {valued' : ν → ν' → Prop}
    (related : Corresponds keyed valued map other)
    (keys : ∀ key ∈ map.keys, ∀ key', keyed key key' → keyed' key key')
    (values : ∀ value ∈ map.values, ∀ value', valued value value' → valued' value value') :
    Corresponds keyed' valued' map other := by
  have held := (List.forall₂_and_left _ _).2 ⟨fun entry inside => inside, related⟩
  refine List.Forall₂.imp (fun entry entry' ⟨inside, key, value⟩ => ⟨?_, ?_⟩) held
  · exact keys _ (List.mem_map_of_mem inside) _ key
  · exact values _ (List.mem_map_of_mem inside) _ value

theorem imp {keyed' : κ → κ' → Prop} {valued' : ν → ν' → Prop}
    (related : Corresponds keyed valued map other)
    (keys : ∀ key key', keyed key key' → keyed' key key')
    (values : ∀ value ∈ map.values, ∀ value', valued value value' → valued' value value') :
    Corresponds keyed' valued' map other :=
  related.imp_of_mem (fun key _ => keys key) values

theorem flip {keyed' : κ' → κ → Prop} {valued' : ν' → ν → Prop}
    (related : Corresponds keyed valued map other)
    (keys : ∀ key key', keyed key key' → keyed' key' key)
    (values : ∀ value ∈ map.values, ∀ value', valued value value' → valued' value' value) :
    Corresponds keyed' valued' other map := by
  have turned : Corresponds (fun key key' => keyed' key' key)
      (fun value value' => valued' value' value) map other := related.imp keys values
  exact List.Forall₂.flip turned

theorem comp {κ'' ν'' : Type} {last : OrderedMap κ'' ν''} {keyed' : κ' → κ'' → Prop}
    {valued' : ν' → ν'' → Prop} {keyed'' : κ → κ'' → Prop} {valued'' : ν → ν'' → Prop}
    (related : Corresponds keyed valued map other) (related' : Corresponds keyed' valued' other last)
    (keys : ∀ key key' key'', keyed key key' → keyed' key' key'' → keyed'' key key'')
    (values : ∀ value ∈ map.values, ∀ value' value'', valued value value' →
      valued' value' value'' → valued'' value value'') : Corresponds keyed'' valued'' map last := by
  obtain ⟨entries⟩ := map
  obtain ⟨entries'⟩ := other
  obtain ⟨entries''⟩ := last
  change List.Forall₂ _ entries entries' at related
  change List.Forall₂ _ entries' entries'' at related'
  show List.Forall₂ _ entries entries''
  induction related generalizing entries'' with
  | nil => rw [List.forall₂_nil_left_iff.1 related']; exact .nil
  | @cons entry entry' rest rest' both _ step =>
      obtain ⟨entry'', rest'', both', later, rfl⟩ := List.forall₂_cons_left_iff.1 related'
      have here := values entry.2 List.mem_cons_self _ _ both.2 both'.2
      exact .cons ⟨keys _ _ _ both.1 both'.1, here⟩
        (step (fun value inside => values value (List.mem_cons_of_mem _ inside)) rest'' later)

theorem keys (related : Corresponds keyed valued map other) :
    List.Forall₂ keyed map.keys other.keys := by
  rw [OrderedMap.keys, OrderedMap.keys, List.forall₂_map_left_iff, List.forall₂_map_right_iff]
  exact List.Forall₂.imp (fun _ _ both => both.1) related

theorem values (related : Corresponds keyed valued map other) :
    List.Forall₂ valued map.values other.values := by
  rw [OrderedMap.values, OrderedMap.values, List.forall₂_map_left_iff, List.forall₂_map_right_iff]
  exact List.Forall₂.imp (fun _ _ both => both.2) related

theorem mapValues {changed : μ → μ' → Prop} {f : ν → μ} {f' : ν' → μ'}
    (values : ∀ value value', valued value value' → changed (f value) (f' value'))
    (related : Corresponds keyed valued map other) :
    Corresponds keyed changed (map.mapValues f) (other.mapValues f') := by
  show List.Forall₂ _ (map.entries.map _) (other.entries.map _)
  rw [List.forall₂_map_left_iff, List.forall₂_map_right_iff]
  exact List.Forall₂.imp (fun _ _ both => ⟨both.1, values _ _ both.2⟩) related

private theorem same_iff (unique : Relator.BiUnique keyed) {one two : κ} {one' two' : κ'}
    (first : keyed one one') (second : keyed two two') : one = two ↔ one' = two' :=
  ⟨fun same => unique.2 first (same ▸ second), fun same => unique.1 first (same ▸ second)⟩

variable [DecidableEq κ] [DecidableEq κ']

/-- Related keys have related values, or none of the two has a value. -/
theorem get? (unique : Relator.BiUnique keyed) (related : Corresponds keyed valued map other)
    {key : κ} {key' : κ'} (keys : keyed key key') :
    Option.Rel valued (map.get? key) (other.get? key') := by
  obtain ⟨entries⟩ := map
  obtain ⟨entries'⟩ := other
  change List.Forall₂ _ entries entries' at related
  show Option.Rel valued (lookup key entries) (lookup key' entries')
  induction related with
  | nil => exact .none
  | @cons entry entry' rest rest' both _ step =>
      simp only [lookup, same_iff unique both.1 keys]
      split
      · exact .some both.2
      · exact step

theorem insert (unique : Relator.BiUnique keyed) (related : Corresponds keyed valued map other)
    {key : κ} {key' : κ'} {value : ν} {value' : ν'} (keys : keyed key key')
    (values : valued value value') :
    Corresponds keyed valued (map.insert key value) (other.insert key' value') := by
  obtain ⟨entries⟩ := map
  obtain ⟨entries'⟩ := other
  change List.Forall₂ _ entries entries' at related
  show List.Forall₂ _ (write key value entries) (write key' value' entries')
  induction related with
  | nil => exact .cons ⟨keys, values⟩ .nil
  | @cons entry entry' rest rest' both others step =>
      simp only [write, same_iff unique both.1 keys]
      split
      · exact .cons ⟨both.1, values⟩ others
      · exact .cons both step

theorem insertAll (unique : Relator.BiUnique keyed) (related : Corresponds keyed valued map other)
    {pairs : List (κ × ν)} {pairs' : List (κ' × ν')}
    (added : Corresponds keyed valued ⟨pairs⟩ ⟨pairs'⟩) :
    Corresponds keyed valued (map.insertAll pairs) (other.insertAll pairs') := by
  change List.Forall₂ _ pairs pairs' at added
  induction added generalizing map other with
  | nil => exact related
  | cons both _ step => exact step (related.insert unique both.1 both.2)

theorem extend (unique : Relator.BiUnique keyed) (related : Corresponds keyed valued map other)
    {added : OrderedMap κ ν} {added' : OrderedMap κ' ν'}
    (both : Corresponds keyed valued added added') :
    Corresponds keyed valued (map.extend added) (other.extend added') :=
  related.insertAll unique both

end Corresponds

end RecipeGraph.OrderedMap
