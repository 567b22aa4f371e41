/-
# Which value of a property wins

A named style takes values over from the styles that its tags refer to, and has entries of its own.
For each key one value is left. This module says which one, without following the steps in which
values overwrite each other: an entry of the style itself comes before whatever is taken over, a
later tag before an earlier one, and a later entry before an earlier one. Only lines of description
are gathered, up to the last entry that sets the description as a whole.
-/

import Mathlib.Data.List.Forall2
import Mathlib.Data.List.Induction
import RecipeGraph.Proofs.Build.Account
import RecipeGraph.Proofs.Build.Frame
import RecipeGraph.Proofs.Data.Extension

namespace RecipeGraph

/-! ### Keys in the order of their first mention -/

namespace OrderedMap

variable {κ ν : Type} [DecidableEq κ]

theorem eraseDups_snoc (keys : List κ) (key : κ) :
    (keys ++ [key]).eraseDups =
      if key ∈ keys.eraseDups then keys.eraseDups else keys.eraseDups ++ [key] := by
  rw [List.eraseDups_append]
  by_cases held : key ∈ keys <;> simp [List.removeAll, List.eraseDups_cons, held]

/-- A key that is written is mentioned after those before it. -/
theorem keys_insert_mentioned {map : OrderedMap κ ν} {mentioned : List κ}
    (keys : map.keys = mentioned.eraseDups) (key : κ) (value : ν) :
    (map.insert key value).keys = (mentioned ++ [key]).eraseDups := by
  rw [keys_insert, keys, eraseDups_snoc]

theorem keys_insertAll_mentioned {map : OrderedMap κ ν} {mentioned : List κ}
    (keys : map.keys = mentioned.eraseDups) (pairs : List (κ × ν)) :
    (map.insertAll pairs).keys = (mentioned ++ pairs.map Prod.fst).eraseDups := by
  induction pairs generalizing map mentioned with
  | nil => rw [insertAll, keys, List.map_nil, List.append_nil]
  | cons pair rest step =>
      rw [insertAll, step (keys_insert_mentioned keys pair.1 pair.2), List.append_assoc]
      rfl

end OrderedMap

/-! ### What a style says itself -/

open StyleProperties (descriptionKey appendDescription)

namespace StyleEntry

/-- The key that an entry is about. -/
def key : StyleEntry → String
  | .property key _ => key
  | .description _ => descriptionKey

/-- The line of description that an entry adds. -/
def line? : StyleEntry → Option String
  | .property _ _ => none
  | .description line => some line

/-- The value that entries settle on for a key, each entry counting for more than those before it. -/
inductive Settle : (entries : List StyleEntry) → (key value : String) → Prop
  /-- For most keys the last value counts. -/
  | property {before after : List StyleEntry} {key value : String} (plain : key ≠ descriptionKey)
      (last : ∀ other, .property key other ∉ after) :
      Settle (before ++ .property key value :: after) key value
  /-- A description may be set as a whole. Only the lines after that are added to it. -/
  | reset {before after : List StyleEntry} {value : String}
      (last : ∀ other, .property descriptionKey other ∉ after) :
      Settle (before ++ .property descriptionKey value :: after) descriptionKey
        ("\n".intercalate (value :: after.filterMap line?))
  /-- A description that is never set as a whole consists of its lines. -/
  | lines {entries : List StyleEntry} (unset : ∀ other, .property descriptionKey other ∉ entries)
      (described : entries.filterMap line? ≠ []) :
      Settle entries descriptionKey ("\n".intercalate (entries.filterMap line?))

/-- An entry writes something under its own key. -/
theorem addTo_eq_insert (properties : StyleProperties) (entry : StyleEntry) :
    ∃ value, entry.addTo properties = properties.insert entry.key value := by
  cases entry with
  | property key value => exact ⟨value, rfl⟩
  | description line =>
      show ∃ value, appendDescription properties line = _
      unfold appendDescription
      split
      · exact ⟨_, rfl⟩
      · exact ⟨_, rfl⟩

theorem addTo_distinct {properties : StyleProperties} (distinct : properties.Distinct)
    (entry : StyleEntry) : (entry.addTo properties).Distinct := by
  obtain ⟨value, same⟩ := entry.addTo_eq_insert properties
  exact same ▸ distinct.insert _ _

theorem get?_addTo_of_ne {properties : StyleProperties} {entry : StyleEntry} {key : String}
    (other : entry.key ≠ key) : (entry.addTo properties).get? key = properties.get? key := by
  obtain ⟨value, same⟩ := entry.addTo_eq_insert properties
  rw [same, OrderedMap.get?_insert, if_neg other]

/-- Entries that are not about a key leave its value alone. -/
theorem get?_foldl_of_ne {key : String} {entries : List StyleEntry}
    (others : ∀ entry ∈ entries, entry.key ≠ key) (properties : StyleProperties) :
    (entries.foldl addTo properties).get? key = properties.get? key := by
  induction entries generalizing properties with
  | nil => rfl
  | cons entry rest step =>
      obtain ⟨first, later⟩ := List.forall_mem_cons.1 others
      exact (step later _).trans (get?_addTo_of_ne first)

/-- Where an entry is about a key but is no property of that key, it is a line of description. -/
theorem key_ne_of_not_mem {key : String} {entries : List StyleEntry} (plain : key ≠ descriptionKey)
    (last : ∀ other, .property key other ∉ entries) : ∀ entry ∈ entries, entry.key ≠ key := by
  intro entry held same
  cases entry with
  | property here value => exact last value (same ▸ held)
  | description line => exact plain same.symm

/-- Lines are added to a description that is there already. -/
theorem get?_foldl_lines {text : String} {entries : List StyleEntry}
    (unset : ∀ other, .property descriptionKey other ∉ entries) {properties : StyleProperties}
    (given : properties.get? descriptionKey = some text) :
    (entries.foldl addTo properties).get? descriptionKey =
      some ("\n".intercalate (text :: entries.filterMap line?)) := by
  induction entries generalizing properties text with
  | nil => exact given
  | cons entry rest step =>
      have later : ∀ other, .property descriptionKey other ∉ rest :=
        fun other held => unset other (List.mem_cons_of_mem entry held)
      cases entry with
      | property key value =>
          have apart : key ≠ descriptionKey := fun same => unset value (same ▸ List.mem_cons_self)
          have kept : (properties.insert key value).get? descriptionKey = some text := by
            rw [OrderedMap.get?_insert, if_neg apart, given]
          exact step later kept
      | description line =>
          have longer : (appendDescription properties line).get? descriptionKey =
              some (text ++ "\n" ++ line) := by
            rw [appendDescription, given]
            exact OrderedMap.get?_insert_self _ _ _
          exact step later longer

/-- A description that is not there yet begins with the first line. -/
theorem get?_foldl_first_lines {entries : List StyleEntry}
    (unset : ∀ other, .property descriptionKey other ∉ entries)
    (described : entries.filterMap line? ≠ []) {properties : StyleProperties}
    (absent : properties.get? descriptionKey = none) :
    (entries.foldl addTo properties).get? descriptionKey =
      some ("\n".intercalate (entries.filterMap line?)) := by
  induction entries generalizing properties with
  | nil => exact absurd rfl described
  | cons entry rest step =>
      have later : ∀ other, .property descriptionKey other ∉ rest :=
        fun other held => unset other (List.mem_cons_of_mem entry held)
      cases entry with
      | property key value =>
          have apart : key ≠ descriptionKey := fun same => unset value (same ▸ List.mem_cons_self)
          have kept : (properties.insert key value).get? descriptionKey = none := by
            rw [OrderedMap.get?_insert, if_neg apart, absent]
          exact step later described kept
      | description line =>
          have begun : (appendDescription properties line).get? descriptionKey = some line := by
            rw [appendDescription, absent]
            exact OrderedMap.get?_insert_self _ _ _
          exact get?_foldl_lines later begun

/-- Either some property of a key is the last one, or there is none. -/
theorem exists_last_property (key : String) (entries : List StyleEntry) :
    (∃ before value after, entries = before ++ .property key value :: after ∧
      ∀ other, .property key other ∉ after) ∨
    ∀ other, .property key other ∉ entries := by
  induction entries with
  | nil => exact .inr fun _ => List.not_mem_nil
  | cons entry rest step =>
      rcases step with ⟨before, value, after, rfl, last⟩ | absent
      · exact .inl ⟨entry :: before, value, after, rfl, last⟩
      by_cases here : ∃ value, entry = .property key value
      · obtain ⟨value, rfl⟩ := here
        exact .inl ⟨[], value, rest, rfl, absent⟩
      · refine .inr fun other held => ?_
        rcases List.mem_cons.1 held with first | later
        · exact here ⟨other, first.symm⟩
        · exact absent other later

/-- Entries settle on a value for every key that they mention. -/
theorem exists_settle {key : String} {entries : List StyleEntry}
    (mentioned : key ∈ entries.map StyleEntry.key) : ∃ value, Settle entries key value := by
  rcases exists_last_property key entries with ⟨before, value, after, rfl, last⟩ | absent
  · by_cases plain : key = descriptionKey
    · subst plain
      exact ⟨_, .reset last⟩
    · exact ⟨value, .property plain last⟩
  · obtain ⟨entry, held, rfl⟩ := List.mem_map.1 mentioned
    cases entry with
    | property key value => exact absurd held (absent value)
    | description line =>
        refine ⟨_, .lines absent fun none => ?_⟩
        have added : line ∈ entries.filterMap line? := List.mem_filterMap.2 ⟨_, held, rfl⟩
        rw [none] at added
        cases added

end StyleEntry

namespace StyleBlock

open StyleEntry (Settle addTo)

variable {block : StyleBlock} {key value : String}

theorem ownProperties_distinct (block : StyleBlock) : block.ownProperties.Distinct :=
  List.foldlRecOn (motive := OrderedMap.Distinct) block.entries addTo OrderedMap.distinct_empty
    fun _ distinct entry _ => StyleEntry.addTo_distinct distinct entry

/-- The value that the entries settle on is the one that is kept. -/
theorem get?_ownProperties_of_settle (settle : Settle block.entries key value) :
    block.ownProperties.get? key = some value := by
  unfold ownProperties
  generalize block.entries = entries at settle
  cases settle with
  | property plain last =>
      rw [List.foldl_append, List.foldl_cons,
        StyleEntry.get?_foldl_of_ne (StyleEntry.key_ne_of_not_mem plain last)]
      exact OrderedMap.get?_insert_self _ _ _
  | reset last =>
      rw [List.foldl_append, List.foldl_cons]
      exact StyleEntry.get?_foldl_lines last (OrderedMap.get?_insert_self _ _ _)
  | lines unset described => exact StyleEntry.get?_foldl_first_lines unset described rfl

theorem get?_ownProperties_iff (mentioned : key ∈ block.entries.map StyleEntry.key) :
    block.ownProperties.get? key = some value ↔ Settle block.entries key value := by
  refine ⟨fun kept => ?_, get?_ownProperties_of_settle⟩
  obtain ⟨settled, settle⟩ := StyleEntry.exists_settle mentioned
  obtain rfl := Option.some.inj (kept.symm.trans (get?_ownProperties_of_settle settle))
  exact settle

theorem get?_ownProperties_of_not_mem (absent : key ∉ block.entries.map StyleEntry.key) :
    block.ownProperties.get? key = none := by
  have others : ∀ entry ∈ block.entries, entry.key ≠ key :=
    fun entry held same => absent (List.mem_map.2 ⟨entry, held, same⟩)
  exact StyleEntry.get?_foldl_of_ne others .empty

/-! ### What a style takes over -/

/-- The keys that a style mentions at a level: those of its tags first, and then its own. -/
def mentions (block : StyleBlock) (dag : Dag) : List String :=
  (block.tags.flatMap fun tag => ((dag.style? tag.value).map OrderedMap.keys).getD []) ++
    block.entries.map StyleEntry.key

/-- How a style is resolved at a level. -/
structure Resolves (block : StyleBlock) (dag : Dag) (flattened : Flattened) : Prop where
  /-- What a style says itself counts for more than what it takes over. -/
  own : ∀ key ∈ block.entries.map StyleEntry.key, ∀ value,
    flattened.properties.get? key = some value ↔ Settle block.entries key value
  /-- Any other value comes from the last tag that is known and has one. -/
  inherited : ∀ key ∉ block.entries.map StyleEntry.key,
    flattened.properties.get? key =
      block.tags.reverse.findSome? fun tag => (dag.style? tag.value).bind fun properties =>
        properties.get? key
  keys : flattened.properties.keys = (block.mentions dag).eraseDups
  missing : flattened.missing = block.tags.filter fun tag => (dag.style? tag.value).isNone

/-- What the tags of a style come to. -/
structure Inherits (dag : Dag) (tags : List (Spanned QualifiedPath)) (result : Flattened) :
    Prop where
  distinct : result.properties.Distinct
  values : ∀ key, result.properties.get? key =
    tags.reverse.findSome? fun tag => (dag.style? tag.value).bind fun properties =>
      properties.get? key
  keys : result.properties.keys =
    (tags.flatMap fun tag => ((dag.style? tag.value).map OrderedMap.keys).getD []).eraseDups
  missing : result.missing = tags.filter fun tag => (dag.style? tag.value).isNone

theorem Inherits.addTag {dag : Dag} {tags : List (Spanned QualifiedPath)} {result : Flattened}
    (inherits : Inherits dag tags result) {tag : Spanned QualifiedPath}
    (map : ∀ properties, dag.style? tag.value = some properties → properties.Distinct) :
    Inherits dag (tags ++ [tag]) (result.addTag dag tag) := by
  unfold Flattened.addTag
  cases known : dag.style? tag.value with
  | none =>
      refine ⟨inherits.distinct, fun key => ?_, ?_, ?_⟩
      · simp [inherits.values key, known]
      · simp [inherits.keys, known]
      · simp [inherits.missing, known]
  | some properties =>
      have distinct := map properties known
      refine ⟨inherits.distinct.insertAll _, fun key => ?_, ?_, ?_⟩
      · rw [OrderedMap.get?_extend _ distinct, inherits.values key]
        cases held : properties.get? key <;> simp [known, held]
      · show (result.properties.insertAll properties.entries).keys = _
        rw [OrderedMap.keys_insertAll_mentioned inherits.keys]
        simp [known, OrderedMap.keys]
      · simp [inherits.missing, known]

theorem inherits_tags {dag : Dag} {tags : List (Spanned QualifiedPath)}
    (maps : ∀ tag ∈ tags, ∀ properties, dag.style? tag.value = some properties →
      properties.Distinct) :
    Inherits dag tags (tags.foldl (Flattened.addTag dag) ⟨.empty, []⟩) := by
  induction tags using List.reverseRecOn with
  | nil => exact ⟨OrderedMap.distinct_empty, fun _ => rfl, rfl, rfl⟩
  | append_singleton tags tag step =>
      rw [List.foldl_append]
      have before := step fun other held => maps other (List.mem_append_left [tag] held)
      exact before.addTag (maps tag (List.mem_append_right tags List.mem_cons_self))

/-- The keys of a map that is extended by the entries of a style. -/
theorem keys_extend_own {map : StyleProperties} {mentioned : List String}
    (keys : map.keys = mentioned.eraseDups) (entries : List StyleEntry) :
    (map.extend (entries.foldl addTo .empty)).keys =
      (mentioned ++ entries.map StyleEntry.key).eraseDups := by
  induction entries using List.reverseRecOn with
  | nil => simpa [OrderedMap.extend, OrderedMap.empty, OrderedMap.insertAll] using keys
  | append_singleton entries entry step =>
      have distinct : (entries.foldl addTo .empty).Distinct := ownProperties_distinct ⟨[], entries⟩
      obtain ⟨value, same⟩ := entry.addTo_eq_insert (entries.foldl addTo .empty)
      rw [List.foldl_append, List.foldl_cons, List.foldl_nil, same,
        OrderedMap.extend_insert _ distinct, OrderedMap.keys_insert_mentioned step,
        List.map_append, List.append_assoc]
      rfl

/-- A style is resolved as is said above, where no map of properties holds a key twice. -/
theorem resolves_flatten {dag : Dag} {block : StyleBlock}
    (maps : ∀ tag ∈ block.tags, ∀ properties, dag.style? tag.value = some properties →
      properties.Distinct) :
    block.Resolves dag (block.flatten dag) := by
  have inherits := inherits_tags maps
  have value : ∀ key, (block.flatten dag).properties.get? key =
      (block.ownProperties.get? key).or
        ((block.tags.foldl (Flattened.addTag dag) ⟨.empty, []⟩).properties.get? key) :=
    OrderedMap.get?_extend _ block.ownProperties_distinct
  refine ⟨fun key mentioned settled => ?_, fun key absent => ?_, ?_, inherits.missing⟩
  · obtain ⟨kept, settle⟩ := StyleEntry.exists_settle mentioned
    rw [value, get?_ownProperties_of_settle settle, Option.some_or,
      ← get?_ownProperties_of_settle settle]
    exact get?_ownProperties_iff mentioned
  · rw [value, get?_ownProperties_of_not_mem absent, Option.none_or]
    exact inherits.values key
  · exact keys_extend_own inherits.keys block.entries

end StyleBlock

/-- A named style is resolved by priority, at every level and whatever it says, and kept under its
name. For each tag that is not known there is one warning about it, and there are no others. It is
assumed that the styles referred to are maps, which hold no key twice. -/
theorem StyleBlock.flattens_by_priority {dag : Dag} {block : StyleBlock}
    (maps : ∀ tag ∈ block.tags, ∀ properties, dag.style? tag.value = some properties →
      properties.Distinct) :
    block.Resolves dag (block.flatten dag) ∧
      ∀ {σ : Type} (resolve : Resolve σ) (name : Spanned String) (work : Work σ),
        work.level = dag →
        let after := Work.place resolve (.namedStyle name block) work
        after.level = dag.setStyle name.value (block.flatten dag).properties ∧
          ∃ warnings : List Diagnostic,
            List.Forall₂ (fun tag warning => warning.Warns .undefinedStyleTag tag.span)
              (block.flatten dag).missing warnings ∧
            after.found.entries = work.found.entries ++ warnings := by
  refine ⟨resolves_flatten maps, ?_⟩
  rintro σ resolve name work rfl
  obtain ⟨level, found, -⟩ := Work.reportTags_eq (block.flatten work.level).missing work
  let properties := (block.flatten work.level).properties
  refine ⟨congrArg (fun level => level.setStyle name.value properties) level, _, ?_, found⟩
  rw [List.forall₂_map_right_iff, List.forall₂_same]
  exact fun tag _ => ⟨rfl, rfl, rfl⟩

/-- A level at which two styles are known. -/
def Dag.dressed : Dag :=
  ((Dag.empty IdSupply.start.take.1 "").setStyle "warm"
    (.ofList [("color", "red"), ("description", "not cold"), ("shape", "box")])).setStyle "hot"
    (.ofList [("heat", "high"), ("color", "white")])

/-- A style that refers to both of them and to another one. It describes itself, starts again and
goes on, and has a shape of its own. -/
def StyleBlock.boiling : StyleBlock where
  tags := [⟨.single "warm", ⟨1, 6⟩⟩, ⟨.single "burnt", ⟨8, 14⟩⟩, ⟨.single "hot", ⟨16, 20⟩⟩]
  entries := [.description "hot", .property "shape" "oval", .property "description" "very hot",
    .description "and moving"]

private theorem boiling_maps : ∀ tag ∈ StyleBlock.boiling.tags,
    ∀ properties ∈ Dag.dressed.style? tag.value, properties.keys.Nodup := by
  decide +kernel

theorem StyleBlock.flattens_by_priority_of_boiling :
    let flattened := boiling.flatten .dressed
    flattened.properties.entries = [("color", "white"), ("description", "very hot\nand moving"),
        ("shape", "oval"), ("heat", "high")] ∧
      flattened.missing.map Spanned.value = [.single "burnt"] ∧
      boiling.Resolves .dressed flattened :=
  ⟨by decide +kernel, by decide +kernel, (flattens_by_priority boiling_maps).1⟩

end RecipeGraph
