/-
# What merging comes to

Merging writes the registries of one level into those of another, and moves the nested levels there.
Registries are extended entry by entry, so it makes no difference whether a level has absorbed another
one before it is absorbed itself: merging is associative, and a level with nothing in it is neutral
but for the place that the outcome has.

A look-up in the merged level finds what the absorbed level has, with one exception. The name of a
nested level only counts where no variable of that name stands for a nested level, so a variable of
the level that absorbs may hide a level that is absorbed.
-/

import RecipeGraph.Proofs.Graph.Throughout

namespace RecipeGraph.Dag

variable {base dag other : Dag}

theorem merge_eq_insertAll (dag other : Dag) :
    dag.merge other = { dag with
      nodes := dag.nodes.extend other.nodes
      edges := dag.edges.extend other.edges
      children := dag.children.insertAll
        (other.children.values.map fun child => (child.id, child.withParent dag.id))
      styles := dag.styles.extend other.styles
      bindings := dag.bindings.extend other.bindings
      variableIds := dag.variableIds.extend other.variableIds
      variableStyles := dag.variableStyles.extend other.variableStyles
      imports := dag.imports.extend other.imports } := by
  rw [merge, attachAll_eq]

theorem variableIds_merge (base dag : Dag) :
    (base.merge dag).variableIds = base.variableIds.extend dag.variableIds := by
  rw [merge_eq_insertAll]

theorem variableStyles_merge (base dag : Dag) :
    (base.merge dag).variableStyles = base.variableStyles.extend dag.variableStyles := by
  rw [merge_eq_insertAll]

theorem styles_merge (base dag : Dag) :
    (base.merge dag).styles = base.styles.extend dag.styles := by
  rw [merge_eq_insertAll]

/-- Where nested levels are kept under their own identifiers, merging extends every registry. -/
theorem merge_eq (dag other : Dag)
    (keyed : ∀ entry ∈ other.children.entries, entry.1 = entry.2.id) :
    dag.merge other = { dag with
      nodes := dag.nodes.extend other.nodes
      edges := dag.edges.extend other.edges
      children := dag.children.extend (other.children.mapValues (·.withParent dag.id))
      styles := dag.styles.extend other.styles
      bindings := dag.bindings.extend other.bindings
      variableIds := dag.variableIds.extend other.variableIds
      variableStyles := dag.variableStyles.extend other.variableStyles
      imports := dag.imports.extend other.imports } := by
  have moved : (other.children.values.map fun child => (child.id, child.withParent dag.id)) =
      (other.children.mapValues (·.withParent dag.id)).entries := by
    simp only [OrderedMap.values, OrderedMap.mapValues, List.map_map]
    exact List.map_congr_left fun entry held => by simp [keyed entry held]
  rw [merge_eq_insertAll, moved]
  rfl

/-! ### The laws of merging -/

/-- A level with nothing in it may be absorbed without a trace. -/
theorem merge_empty (dag : Dag) (id : Id) (name : String) : dag.merge (.empty id name) = dag := by
  cases dag
  rfl

/-- A level that has absorbed another one brings it along when it is absorbed itself. -/
theorem merge_merge (mapped : dag.Mapped) (other : Dag) :
    base.merge (dag.merge other) = (base.merge dag).merge other := by
  rw [merge_eq base (dag.merge other) (keyed_merge mapped.children_keyed other),
    merge_eq base dag mapped.children_keyed, merge_eq_insertAll dag other,
    merge_eq_insertAll _ other]
  simp only [OrderedMap.extend_extend _ mapped.nodes, OrderedMap.extend_extend _ mapped.edges,
    OrderedMap.extend_extend _ mapped.styles, OrderedMap.extend_extend _ mapped.bindings,
    OrderedMap.extend_extend _ mapped.variableIds, OrderedMap.extend_extend _ mapped.variableStyles,
    OrderedSet.extend_extend, OrderedMap.mapValues_insertAll,
    OrderedMap.extend_insertAll _ (mapped.children.mapValues _), List.map_map]
  rfl

/-- The level with nothing in it: its identity, name, style and place. -/
def cleared (dag : Dag) : Dag :=
  { empty dag.id dag.name with
    parent := dag.parent
    style := dag.style }

theorem merge_cleared (dag other : Dag) : dag.merge other.cleared = dag := by
  cases dag
  rfl

/-- A level that has nothing in it takes over everything, and stays where it is. -/
theorem cleared_merge (filed : dag.Filed) (base : Dag) :
    base.cleared.merge dag = { dag with
      id := base.id
      name := base.name
      parent := base.parent
      style := base.style
      children := dag.children.mapValues (·.withParent base.id) } := by
  rw [merge_eq _ dag filed.children_keyed]
  simp only [cleared, empty, OrderedMap.empty_extend filed.nodes,
    OrderedMap.empty_extend filed.edges, OrderedMap.empty_extend (filed.children.mapValues _),
    OrderedMap.empty_extend filed.styles, OrderedMap.empty_extend filed.bindings,
    OrderedMap.empty_extend filed.variableIds, OrderedMap.empty_extend filed.variableStyles,
    OrderedSet.empty_extend filed.imports]

/-- Levels that are merged into one another in any order that keeps each of them in its place. -/
inductive Nesting where
  | level (dag : Dag)
  /-- What comes of the second nesting is merged into what comes of the first one. -/
  | merge (outer inner : Nesting)

namespace Nesting

/-- The levels of a nesting, in their order. -/
def levels : Nesting → List Dag
  | .level dag => [dag]
  | .merge outer inner => outer.levels ++ inner.levels

/-- What comes of all the merges. -/
def merged : Nesting → Dag
  | .level dag => dag
  | .merge outer inner => outer.merged.merge inner.merged

end Nesting

/-- Absorbs several levels one after the other. -/
def mergeAll (dag : Dag) (others : List Dag) : Dag :=
  others.foldl merge dag

theorem merge_mergeAll (mapped : dag.Mapped) (others : List Dag) :
    base.merge (dag.mergeAll others) = (base.merge dag).mergeAll others := by
  induction others generalizing dag with
  | nil => rfl
  | cons other rest step =>
      show base.merge ((dag.merge other).mergeAll rest) = ((base.merge dag).merge other).mergeAll rest
      rw [step (mapped.merge other), merge_merge mapped]

/-- However levels are nested, it comes to the same as absorbing them one after the other. -/
theorem Nesting.merged_eq_mergeAll (nesting : Nesting)
    (mapped : ∀ level ∈ nesting.levels, level.Mapped) :
    ∃ first rest, nesting.levels = first :: rest ∧ nesting.merged = first.mergeAll rest := by
  induction nesting with
  | level dag => exact ⟨dag, [], rfl, rfl⟩
  | merge outer inner outer_step inner_step =>
      obtain ⟨first, rest, listed, merged⟩ := outer_step fun level held =>
        mapped level (List.mem_append_left _ held)
      obtain ⟨first', rest', listed', merged'⟩ := inner_step fun level held =>
        mapped level (List.mem_append_right _ held)
      have inside : first'.Mapped := mapped first' <| List.mem_append_right _ <| by
        rw [listed']
        exact List.mem_cons_self
      refine ⟨first, rest ++ first' :: rest', ?_, ?_⟩
      · rw [levels, listed, listed', List.cons_append]
      · rw [Nesting.merged, merged, merged', merge_mergeAll inside]
        simp only [mergeAll, List.foldl_append, List.foldl_cons]

/-- Merging is associative, whatever identifiers collide, and a level with nothing in it is neutral:
it leaves no trace where it is absorbed, and where it absorbs it takes over everything but the place.
So the same levels come to the same level, however they are nested. -/
theorem built_merge_laws {dag : Dag} (built : dag.Built) {one another : Nesting}
    (built_levels : ∀ level ∈ one.levels, level.Built) (same : one.levels = another.levels) :
    (∀ first last : Dag, (first.merge dag).merge last = first.merge (dag.merge last)) ∧
      (∀ vacant : Dag, dag.merge vacant.cleared = dag) ∧
      (∀ vacant : Dag, vacant.cleared.merge dag = { dag with
        id := vacant.id
        name := vacant.name
        parent := vacant.parent
        style := vacant.style
        children := dag.children.mapValues (·.withParent vacant.id) }) ∧
      one.merged = another.merged := by
  have filed := built.filed.root
  refine ⟨fun first last => (merge_merge filed.toMapped last).symm, merge_cleared dag,
    cleared_merge filed, ?_⟩
  have mapped (level : Dag) (held : level ∈ one.levels) : level.Mapped :=
    (built_levels level held).filed.root.toMapped
  obtain ⟨first, rest, listed, merged⟩ := one.merged_eq_mergeAll mapped
  obtain ⟨first', rest', listed', merged'⟩ := another.merged_eq_mergeAll (same ▸ mapped)
  obtain ⟨rfl, rfl⟩ := List.cons.inj (listed.symm.trans (same.trans listed'))
  rw [merged, merged']

/-- A level that has a node, an edge and a nested level, all under the identifiers given, and knows
the node by a name. -/
def storeroom (node edge child : Nat) (name : String) : Dag :=
  (empty (.ofNat 0) name).performAll [.addNode ⟨.ofNat node, name, .plain⟩,
    .addEdge ⟨.ofNat edge, name, .ofNat node, .ofNat node, .plain⟩,
    .attach (empty (.ofNat child) name), .setVariable name (.ofNat node),
    .addImport "shelf.rg"]

theorem built_storeroom (node edge child : Nat) (name : String) : (storeroom node edge child name).Built :=
  (Built.empty _ _).performAll _ (by simpa [Operation.graphs] using Built.empty _ _)

theorem built_merge_laws_of_collisions :
    let first := storeroom 1 2 3 "flour"
    let second := storeroom 1 3 3 "sugar"
    let third := storeroom 2 3 1 "flour"
    let left := Nesting.merge (.merge (.level first) (.level second)) (.level third)
    let right := Nesting.merge (.level first) (.merge (.level second) (.level third))
    ((first.merge second).nodes.size, (first.merge second).children.size) = (1, 1) ∧
      (first.merge second).merge third = first.merge (second.merge third) ∧
      left.merged = right.merged ∧ second.merge (empty (.ofNat 9) "void") = second ∧
      ((empty (.ofNat 9) "void").merge second).children.values.map Dag.parent =
        [some (.ofNat 9)] := by
  intro first second third left right
  have built (level : Dag) (held : level ∈ left.levels) : level.Built := by
    have listed : level ∈ [first, second, third] := held
    simp only [List.mem_cons, List.not_mem_nil, or_false] at listed
    rcases listed with rfl | rfl | rfl <;> exact built_storeroom _ _ _ _
  obtain ⟨associative, absorbed, absorbing, nested⟩ :=
    built_merge_laws (built second (by simp [left, Nesting.levels])) built
      (show left.levels = right.levels from rfl)
  refine ⟨by decide +kernel, associative first third, nested, absorbed (empty (.ofNat 9) "void"), ?_⟩
  have moved := absorbing (empty (.ofNat 9) "void")
  show ((empty (.ofNat 9) "void").cleared.merge second).children.values.map Dag.parent = _
  rw [moved]
  rfl

/-! ### Looking up after a merge -/

/-- Two levels have no nested level in common, and neither lets a variable stand for a level that is
nested in the other one. -/
structure ChildrenApart (base other : Dag) : Prop where
  apart : ∀ id ∈ base.children.keys, id ∉ other.children.keys
  base_binds : ∀ name id, base.variableIds.get? name = some id → id ∉ other.children.keys
  other_binds : ∀ name id, other.variableIds.get? name = some id → id ∉ base.children.keys

theorem ChildrenApart.of_values (apart : ∀ id ∈ base.children.keys, id ∉ other.children.keys)
    (base_binds : ∀ id ∈ base.variableIds.values, id ∉ other.children.keys)
    (other_binds : ∀ id ∈ other.variableIds.values, id ∉ base.children.keys) :
    base.ChildrenApart other where
  apart := apart
  base_binds _ id bound := base_binds id (OrderedMap.mem_values_of_get? bound)
  other_binds _ id bound := other_binds id (OrderedMap.mem_values_of_get? bound)

/-- The level that absorbs hides a name: a variable there stands for one of its own nested levels, and
the level that is absorbed has no variable of that name. -/
def Hides (base other : Dag) (name : String) : Prop :=
  other.variableIds.get? name = none ∧
    ∃ id ∈ base.children.keys, base.variableIds.get? name = some id

theorem get?_children_merge (mapped : other.Mapped) (id : Id) :
    (base.merge other).children.get? id =
      ((other.children.get? id).map (·.withParent base.id)).or (base.children.get? id) := by
  rw [merge_eq base other mapped.children_keyed]
  show (base.children.extend _).get? id = _
  rw [OrderedMap.get?_extend _ (mapped.children.mapValues _), OrderedMap.get?_mapValues]

/-- The levels that are absorbed come last. -/
theorem values_children_merge (mapped : other.Mapped)
    (apart : ∀ id ∈ base.children.keys, id ∉ other.children.keys) :
    (base.merge other).children.values =
      base.children.values ++ other.children.values.map (·.withParent base.id) := by
  have appended : (base.merge other).children.entries =
      base.children.entries ++ (other.children.mapValues (·.withParent base.id)).entries := by
    rw [merge_eq base other mapped.children_keyed]
    refine OrderedMap.entries_insertAll_of_absent (mapped.children.mapValues _) ?_
    intro id held inside
    have held : id ∈ other.children.keys :=
      OrderedMap.keys_mapValues (·.withParent base.id) other.children ▸ held
    exact apart id inside held
  rw [OrderedMap.values, appended, List.map_append]
  exact congrArg (_ ++ ·) (OrderedMap.values_mapValues _ _)

theorem element?_merge_single (mapped : other.Mapped) (name : String) :
    (base.merge other).element? (.single name) =
      (other.element? (.single name)).or (base.element? (.single name)) := by
  show (base.merge other).variableIds.get? name = _
  rw [variableIds_merge, OrderedMap.get?_extend _ mapped.variableIds]
  rfl

theorem style?_merge_single (mapped : other.Mapped) (name : String) :
    (base.merge other).style? (.single name) =
      (other.style? (.single name)).or (base.style? (.single name)) := by
  show (base.merge other).styles.get? name = _
  rw [styles_merge, OrderedMap.get?_extend _ mapped.styles]
  rfl

section Selecting

variable (mapped : other.Mapped) (apart : base.ChildrenApart other)

include mapped apart

/-- A hidden name selects what it selected before. -/
theorem childFor?_merge_of_hides {segment : String} (hides : base.Hides other segment) :
    (base.merge other).childFor? segment = base.childFor? segment := by
  obtain ⟨unbound, id, inside, bound⟩ := hides
  obtain ⟨child, found⟩ := OrderedMap.exists_get?_of_mem_keys inside
  have absent : other.children.get? id = none := OrderedMap.get?_eq_none (apart.apart id inside)
  simp [childFor?, variableIds_merge, OrderedMap.get?_extend _ mapped.variableIds, unbound, bound,
    get?_children_merge mapped, absent, found]

/-- No variable gets in the way of a name that is not hidden, unless the level that is absorbed has
one itself. -/
theorem unbound_merge {segment : String} (clear : ¬ base.Hides other segment)
    (unbound : (other.variableIds.get? segment).bind other.children.get? = none) :
    ((base.merge other).variableIds.get? segment).bind (base.merge other).children.get? = none := by
  rw [variableIds_merge, OrderedMap.get?_extend _ mapped.variableIds]
  cases own : other.variableIds.get? segment with
  | some id =>
      have absent : base.children.get? id = none :=
        OrderedMap.get?_eq_none (apart.other_binds segment id own)
      rw [own, Option.bind_some] at unbound
      simp [get?_children_merge mapped, unbound, absent]
  | none =>
      cases older : base.variableIds.get? segment with
      | none => rfl
      | some id =>
          have outside : base.children.get? id = none :=
            OrderedMap.get?_eq_none fun inside => clear ⟨own, id, inside, older⟩
          have absent : other.children.get? id = none :=
            OrderedMap.get?_eq_none (apart.base_binds segment id older)
          simp [get?_children_merge mapped, outside, absent]

/-- A name that is not hidden selects the level that it selects in the level that is absorbed. -/
theorem childFor?_merge_of_clear {segment : String} {child : Dag}
    (clear : ¬ base.Hides other segment) (found : other.childFor? segment = some child) :
    (base.merge other).childFor? segment = some (child.withParent base.id) := by
  unfold childFor? at found ⊢
  cases bound : (other.variableIds.get? segment).bind other.children.get? with
  | some selected =>
      rw [bound] at found
      obtain rfl := Option.some.inj found
      obtain ⟨id, same, held⟩ := Option.bind_eq_some_iff.1 bound
      simp [variableIds_merge, OrderedMap.get?_extend _ mapped.variableIds, same,
        get?_children_merge mapped, held]
  | none =>
      rw [bound] at found
      rw [unbound_merge mapped apart clear bound, values_children_merge mapped apart.apart]
      have named : (other.children.values.reverse.map (·.withParent base.id)).find?
          (fun child => child.name == segment) = some (child.withParent base.id) := by
        rw [List.find?_map]
        exact congrArg (Option.map _) found
      show List.find? (fun child : Dag => child.name == segment) (List.reverse _) = _
      rw [List.reverse_append, ← List.map_reverse, List.find?_append, named, Option.some_or]

end Selecting

/-- After a merge a plain name stands for what it stands for in the level that was absorbed, or else
for what it stood for before, as a variable and as a style. A longer path of variables leads where it
leads in the level that was absorbed, except that it leads where it led before if its first segment
is hidden. The merged level has the place of the one that absorbs. -/
theorem merge_lookups {base other : Dag} (built : other.Built) (apart : base.ChildrenApart other) :
    (∀ name : String,
      (base.merge other).element? (.single name) =
          (other.element? (.single name)).or (base.element? (.single name)) ∧
        (base.merge other).style? (.single name) =
          (other.style? (.single name)).or (base.style? (.single name))) ∧
      (∀ segment next rest id, other.element? ⟨segment :: next :: rest⟩ = some id →
        (¬ base.Hides other segment →
          (base.merge other).element? ⟨segment :: next :: rest⟩ = some id) ∧
        (base.Hides other segment →
          (base.merge other).element? ⟨segment :: next :: rest⟩ =
            base.element? ⟨segment :: next :: rest⟩)) ∧
      (base.merge other).id = base.id ∧ (base.merge other).name = base.name ∧
      (base.merge other).style = base.style ∧ (base.merge other).parent = base.parent := by
  have mapped := built.filed.root.toMapped
  refine ⟨fun name => ⟨element?_merge_single mapped name, style?_merge_single mapped name⟩, ?_,
    id_merge base other, name_merge base other, style_merge base other, parent_merge base other⟩
  intro segment next rest id found
  constructor
  · intro clear
    obtain ⟨child, selected, deeper⟩ := Option.bind_eq_some_iff.1 found
    show ((base.merge other).childFor? segment).bind _ = some id
    rw [childFor?_merge_of_clear mapped apart clear selected, Option.bind_some,
      variableAt?_withParent]
    exact deeper
  · intro hides
    show ((base.merge other).childFor? segment).bind _ = (base.childFor? segment).bind _
    rw [childFor?_merge_of_hides mapped apart hides]

/-- A level with one nested level, where a variable stands for a node. The outer level may have a
variable for the nested one. -/
def larder (child node : Nat) (known : Bool) : Dag :=
  let shelf := (empty (.ofNat child) "shelf").performAll [.addNode ⟨.ofNat node, "mill", .plain⟩,
    .setVariable "flour" (.ofNat node)]
  (empty (.ofNat 0) "").performAll
    (.attach shelf :: if known then [.setVariable "shelf" (.ofNat child)] else [])

theorem built_larder (child node : Nat) (known : Bool) : (larder child node known).Built := by
  refine (Built.empty _ _).performAll _ fun operation held => ?_
  cases known <;> simp only [↓reduceIte, Bool.false_eq_true, List.mem_cons, List.not_mem_nil,
    or_false] at held
  · subst held
    simpa [Operation.graphs] using (Built.empty _ _).performAll _ (by simp [Operation.graphs])
  · rcases held with rfl | rfl
    · simpa [Operation.graphs] using (Built.empty _ _).performAll _ (by simp [Operation.graphs])
    · simp [Operation.graphs]

/-- A variable of the level that absorbs hides the shelf that is absorbed. Without that variable the
shelf that is absorbed comes last, and is found. -/
theorem merge_lookups_of_larders :
    let path : QualifiedPath := ⟨["shelf", "flour"]⟩
    let other := larder 3 4 false
    (larder 1 2 true).ChildrenApart other ∧ (larder 1 2 false).ChildrenApart other ∧
      other.element? path = some (.ofNat 4) ∧
      ((larder 1 2 true).merge other).element? path = some (.ofNat 2) ∧
      ((larder 1 2 false).merge other).element? path = some (.ofNat 4) := by
  intro path other
  have apart (known : Bool) : (larder 1 2 known).ChildrenApart other := by
    cases known <;> exact .of_values (by decide +kernel) (by decide +kernel) (by decide +kernel)
  have found : other.element? path = some (.ofNat 4) := by decide +kernel
  have hidden : (larder 1 2 true).Hides other "shelf" := by
    refine ⟨by decide +kernel, .ofNat 1, by decide +kernel, by decide +kernel⟩
  have clear : ¬ (larder 1 2 false).Hides other "shelf" := by
    rintro ⟨_, id, _, bound⟩
    cases bound
  have built := built_larder 3 4 false
  obtain ⟨_, hidden_paths, _⟩ := merge_lookups built (apart true)
  obtain ⟨_, clear_paths, _⟩ := merge_lookups built (apart false)
  refine ⟨apart true, apart false, found, ?_, (clear_paths _ _ _ _ found).1 clear⟩
  rw [(hidden_paths _ _ _ _ found).2 hidden]
  decide +kernel

end RecipeGraph.Dag
