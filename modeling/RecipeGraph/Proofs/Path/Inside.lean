/-
# Staying below the root

Locations that lead out of the root directory are turned away by looking at their components. The
path is changed once more after that, when its last component gets an extension; and if the location
has no name of its own, the last component is one of the root. The directory `recipes` and the
location `.` make the path `recipes.fiz`, which is a file beside the directory. This is the only way
out: a path lies below the root if the location has a name, or if the root does not end with a name
that the extension is added to.
-/

import RecipeGraph.Proofs.Path.Components

namespace RecipeGraph.FilePath

/-- A path lies at or below a root: it goes where the root goes, and from there through names
only. -/
def Inside (root path : String) : Prop :=
  ∃ inside, steps path.toList = steps root.toList ++ inside ∧ ∀ step ∈ inside, step.IsName

variable {root location path : String}

/-- A location has a file exactly if it leads through names only. -/
theorem forLocation_eq_ok_iff : forLocation root location = .ok path ↔
    (∀ step ∈ steps location.toList, step.IsName) ∧
      path = String.ofList (withRecipeExtension (join root.toList location.toList)) := by
  rw [forLocation, locate, ← staysInside_iff]
  split
  · next found =>
      split at found
      · next stays =>
          cases found
          simp [stays, eq_comm]
      · cases found
  · next found =>
      split at found
      · cases found
      · next leaves => simp [leaves]

/-- The path of a location goes where the root goes and then where the location goes, and an
extension is added at the end. -/
theorem steps_forLocation (given : forLocation root location = .ok path) :
    steps path.toList = extendLast (steps root.toList ++ steps location.toList) := by
  obtain ⟨names, rfl⟩ := forLocation_eq_ok_iff.1 given
  rw [String.toList_ofList, steps_withRecipeExtension, steps_join _ (opening_of_names names)]

theorem length_extendLast (list : List Component) : (extendLast list).length = list.length := by
  unfold extendLast
  split
  · next name last =>
      split
      · rfl
      · have filled : 0 < list.length := List.length_pos_of_mem (List.mem_of_getLast? last)
        rw [List.length_append, List.length_dropLast, List.length_singleton]
        omega
  · rfl

/-- Setting the extension makes no component of a list of names anything but a name. -/
theorem isName_of_mem_extendLast {names : List Component} (all : ∀ step ∈ names, step.IsName) :
    ∀ step ∈ extendLast names, step.IsName := by
  unfold extendLast
  split
  · split
    · exact all
    · intro step held
      rcases List.mem_append.1 held with before | last
      · exact all step (List.dropLast_subset _ before)
      · exact ⟨_, List.mem_singleton.1 last⟩
  · exact all

/-- Setting the extension changes a list of components unless it does not end with a name, or that
name has an extension. -/
theorem extendLast_eq_self_iff (list : List Component) :
    extendLast list = list ↔
      ∀ name, list.getLast? = some (.normal name) → hasExtension name = true := by
  unfold extendLast
  split
  · next name last =>
      split
      · next extended => simp [last, extended]
      · next plain =>
          refine ⟨fun same => absurd (congrArg List.getLast? same) ?_, fun all => ?_⟩
          · rw [List.getLast?_concat, last]
            simp [recipeExtension]
          · exact absurd (all name last) plain
  · next other => exact ⟨fun _ name last => absurd last (other name), fun _ => rfl⟩

/-- A location of names has a name exactly if it leads anywhere. -/
theorem steps_ne_nil_iff {location : List Char} (names : ∀ step ∈ steps location, step.IsName) :
    steps location ≠ [] ↔ ∃ name, .normal name ∈ components location := by
  constructor
  · intro nonempty
    obtain ⟨step, held⟩ := List.exists_mem_of_ne_nil _ nonempty
    obtain ⟨name, rfl⟩ := names step held
    exact ⟨name, (List.mem_filter.1 held).1⟩
  · rintro ⟨name, held⟩
    exact List.ne_nil_of_mem (List.mem_filter.2 ⟨held, rfl⟩)

/-- The path of a location lies at or below the root exactly if the location has a name, or the
root does not end with a name that has no extension. -/
theorem forLocation_inside_iff (given : forLocation root location = .ok path) :
    Inside root path ↔
      (∃ name, .normal name ∈ components location.toList) ∨
        ∀ name, (steps root.toList).getLast? = some (.normal name) →
          hasExtension name = true := by
  have names := (forLocation_eq_ok_iff.1 given).1
  have written := steps_forLocation given
  rw [← steps_ne_nil_iff names, ← extendLast_eq_self_iff]
  by_cases nowhere : steps location.toList = []
  · rw [nowhere, List.append_nil] at written
    simp only [nowhere, ne_eq, not_true_eq_false, false_or]
    refine ⟨fun ⟨inside, goes, _⟩ => ?_, fun same => ⟨[], ?_, fun _ held => nomatch held⟩⟩
    · have lengths := congrArg List.length (written.symm.trans goes)
      rw [length_extendLast, List.length_append] at lengths
      have none : inside = [] := List.eq_nil_of_length_eq_zero (by omega)
      rw [← written, goes, none, List.append_nil]
    · rw [written, same, List.append_nil]
  · rw [extendLast_append _ nowhere] at written
    exact ⟨fun _ => .inl nowhere, fun _ => ⟨_, written, isName_of_mem_extendLast names⟩⟩

theorem forLocation_inside_iff_of_bread :
    forLocation "recipes" "sub/bread" = .ok "recipes/sub/bread.fiz" ∧
      (Inside "recipes" "recipes/sub/bread.fiz" ↔
        (∃ name, .normal name ∈ components "sub/bread".toList) ∨
          ∀ name, (steps "recipes".toList).getLast? = some (.normal name) →
            hasExtension name = true) :=
  have given : forLocation "recipes" "sub/bread" = .ok "recipes/sub/bread.fiz" := by rfl
  ⟨given, forLocation_inside_iff given⟩

/-- The directory `recipes` and the location `.` make the path of a file beside the directory. -/
theorem forLocation_beside_root :
    ¬∀ root location path, forLocation root location = .ok path → Inside root path := by
  intro all
  obtain ⟨inside, goes, _⟩ := all "recipes" "." "recipes.fiz" (by rfl)
  have beside : steps "recipes.fiz".toList = [.normal "recipes.fiz".toList] := by decide
  have above : steps "recipes".toList = [.normal "recipes".toList] := by decide
  rw [beside, above] at goes
  simp at goes

end RecipeGraph.FilePath
