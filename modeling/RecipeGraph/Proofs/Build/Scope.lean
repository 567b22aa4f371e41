/-
# What a name stands for

While a level is built, the names that its statements may use change. A scope is the record of it:
every binding that took effect so far, and every level nested so far, both in their order. This
module says what a path means in a scope, without the tables that a level keeps: of several bindings
of a name the last one counts, a name that is bound to a nested level comes before the names that
nested levels have themselves, and of those the last one counts again.

A scope describes a level when it holds the bindings and nested levels that the level holds. Then
what is looked up in the level is what the scope says.
-/

import RecipeGraph.Proofs.Graph.Sound

namespace RecipeGraph

/-- A name that was made to stand for an element, with the style declared on it at that point. -/
structure Binding where
  name : String
  element : Id
  style : Option Style

/-- The bindings of a level and the levels nested in it, oldest first. -/
@[ext] structure Scope where
  bindings : List Binding
  children : List Dag

namespace Scope

/-- Nothing is bound and nothing is nested. -/
def empty : Scope := ⟨[], []⟩

/-- What was bound and nested first, and what was bound and nested after it. -/
instance : Append Scope where
  append first later := ⟨first.bindings ++ later.bindings, first.children ++ later.children⟩

@[simp] theorem bindings_append (first later : Scope) :
    (first ++ later).bindings = first.bindings ++ later.bindings := rfl

@[simp] theorem children_append (first later : Scope) :
    (first ++ later).children = first.children ++ later.children := rfl

@[simp] theorem empty_append (scope : Scope) : empty ++ scope = scope := rfl

@[simp] theorem append_empty (scope : Scope) : scope ++ empty = scope :=
  Scope.ext (List.append_nil _) (List.append_nil _)

theorem append_assoc (first second third : Scope) :
    first ++ second ++ third = first ++ (second ++ third) :=
  Scope.ext (List.append_assoc _ _ _) (List.append_assoc _ _ _)

/-- The last binding of a name. -/
def binding? (scope : Scope) (name : String) : Option Binding :=
  scope.bindings.reverse.find? fun binding => binding.name == name

/-- The nested level that has an identifier. -/
def nested? (scope : Scope) (id : Id) : Option Dag :=
  scope.children.find? fun child => child.id == id

/-- The nested level that the first segment of a path selects: the one that the segment is bound
to, or else the last one of that name. -/
def child? (scope : Scope) (segment : String) : Option Dag :=
  match (scope.binding? segment).bind fun binding => scope.nested? binding.element with
  | some child => some child
  | none => scope.children.reverse.find? fun child => child.name == segment

/-- The element that a path flows from: for a plain name the one it is bound to; for a longer path
the nested level that its first segment selects, provided that the rest of the path leads to a
variable there. -/
def source? (scope : Scope) (path : QualifiedPath) : Option Id :=
  match path.segments with
  | [] => none
  | [name] => (scope.binding? name).map Binding.element
  | segment :: next :: rest => do
    let child ← scope.child? segment
    let _ ← child.variableAt? (next :: rest)
    some child.id

/-- The style declared on the variable at a path. -/
def style? (scope : Scope) (path : QualifiedPath) : Option Style :=
  match path.segments with
  | [] => none
  | [name] => (scope.binding? name).bind Binding.style
  | segment :: next :: rest =>
    (scope.child? segment).bind fun child => child.variableStyleAt? (next :: rest)

theorem binding?_append (first later : Scope) (name : String) :
    (first ++ later).binding? name = (later.binding? name).or (first.binding? name) := by
  rw [binding?, bindings_append, List.reverse_append, List.find?_append]
  rfl

/-- The tables of a level hold what is in the scope. -/
structure Describes (scope : Scope) (level : Dag) : Prop where
  elements : ∀ name, level.variableIds.get? name = (scope.binding? name).map Binding.element
  styles : ∀ name, (level.variableStyles.get? name).join = (scope.binding? name).bind Binding.style
  children : level.children.values = scope.children

namespace Describes

variable {scope : Scope} {level : Dag}

theorem empty (id : Id) (name : String) : Scope.empty.Describes (.empty id name) :=
  ⟨fun _ => rfl, fun _ => rfl, rfl⟩

/-- Whatever is written into the tables of a level continues its scope. -/
theorem append (described : scope.Describes level) {changed : Dag} {later : Scope}
    (elements : changed.variableIds = level.variableIds.insertAll
      (later.bindings.map fun binding => (binding.name, binding.element)))
    (styles : changed.variableStyles = level.variableStyles.insertAll
      (later.bindings.map fun binding => (binding.name, binding.style)))
    (children : changed.children.values = level.children.values ++ later.children) :
    (scope ++ later).Describes changed := by
  have last {α : Type} (what : Binding → α) (name : String) :
      ((later.bindings.map fun binding => (binding.name, what binding)).reverse.find?
        fun pair => pair.1 == name).map Prod.snd = (later.binding? name).map what := by
    rw [← List.map_reverse, List.find?_map, Option.map_map]
    rfl
  refine ⟨fun name => ?_, fun name => ?_, ?_⟩
  · rw [elements, OrderedMap.get?_insertAll_eq_find?, last, described.elements, binding?_append,
      Option.map_or]
  · rw [styles, OrderedMap.get?_insertAll_eq_find?, last, binding?_append]
    cases later.binding? name with
    | none => exact described.styles name
    | some binding => rfl
  · rw [children, described.children, children_append]

/-! ### What is looked up in a level -/

private theorem lookup_keyed (id : Id) {entries : List (Id × Dag)}
    (keyed : ∀ entry ∈ entries, entry.1 = entry.2.id) :
    OrderedMap.lookup id entries = (entries.map Prod.snd).find? fun child => child.id == id := by
  induction entries with
  | nil => rfl
  | cons entry rest step =>
      obtain ⟨key, child⟩ := entry
      obtain rfl : key = child.id := keyed _ List.mem_cons_self
      rw [OrderedMap.lookup, List.map_cons, List.find?_cons,
        step fun other held => keyed other (List.mem_cons_of_mem _ held)]
      by_cases same : child.id = id
      · rw [if_pos same, beq_iff_eq.2 same]
      · rw [if_neg same, beq_eq_false_iff_ne.2 same]

theorem childFor?_eq (described : scope.Describes level) (sound : level.Sound) (segment : String) :
    level.childFor? segment = scope.child? segment := by
  have nested (id : Id) : level.children.get? id = scope.nested? id := by
    rw [nested?, ← described.children]
    exact lookup_keyed id sound.children_keyed
  rw [Dag.childFor?, child?, described.elements, Option.bind_map, described.children, funext nested]
  rfl

/-- An argument flows in a level from where the scope says. -/
theorem producer?_eq (described : scope.Describes level) (sound : level.Sound)
    (path : QualifiedPath) : level.producer? path = scope.source? path := by
  obtain ⟨segments⟩ := path
  match segments with
  | [] => rfl
  | [name] => exact described.elements name
  | segment :: next :: rest =>
      simp only [Dag.producer?, source?, described.childFor?_eq sound]
      cases scope.child? segment with
      | none => rfl
      | some child => exact Option.map_eq_bind

/-- An argument has the style that the scope says. -/
theorem variableStyle?_eq (described : scope.Describes level) (sound : level.Sound)
    (path : QualifiedPath) : level.variableStyle? path = scope.style? path := by
  obtain ⟨segments⟩ := path
  match segments with
  | [] => rfl
  | [name] => exact described.styles name
  | segment :: next :: rest =>
      exact congrArg (Option.bind · _) (described.childFor?_eq sound segment)

end Describes

end Scope

end RecipeGraph
