/-
# One file for a recipe

A location may be written with the extension of recipe files or without it. Where it has a name, its
path goes where the root goes, then where the location goes, and only the last name may get an
extension. So a location that ends in a name without an extension has the same file as the location
with the extension written out.

The text has to end right behind the name for that. What follows a slash is a name of its own, so
`bread/` leads to `bread.fiz`, and `bread/.fiz` to `bread/.fiz.fiz`.
-/

import RecipeGraph.Proofs.Path.Inside

namespace RecipeGraph.FilePath

/-! ### Which locations have a file -/

/-- Behind what a path begins with, it goes up or through a name. -/
theorem parent_or_isName_of_mem_parts {path : List Char} {step : Component}
    (held : step ∈ parts path) : step = .parent ∨ step.IsName := by
  obtain ⟨piece, _, stands⟩ := List.mem_filterMap.1 held
  unfold componentOf? at stands
  split at stands
  · cases stands
  · cases stands
  · exact .inl (Option.some.inj stands).symm
  · exact .inr ⟨piece, (Option.some.inj stands).symm⟩

/-- A location leads through names alone exactly if it is not absolute and never goes up. -/
theorem names_iff (location : List Char) :
    (∀ step ∈ steps location, step.IsName) ↔
      location.head? ≠ some '/' ∧ .parent ∉ components location := by
  constructor
  · intro names
    refine ⟨fun slash => ?_, fun up => ?_⟩
    · have nothing := opening_of_names names
      rw [opening, if_pos slash] at nothing
      cases nothing
    · obtain ⟨name, wrong⟩ := names .parent (List.mem_filter.2 ⟨up, rfl⟩)
      cases wrong
  · rintro ⟨relative, level⟩ step held
    have inner : step ∈ parts location := by
      rwa [steps_eq, opening, if_neg relative, List.nil_append] at held
    refine (parent_or_isName_of_mem_parts inner).resolve_left fun up => level ?_
    rw [← up]
    exact (List.mem_filter.1 held).1

/-- A location has a file exactly if it is not absolute and never goes up. -/
theorem exists_forLocation_iff (root location : String) :
    (∃ path, forLocation root location = .ok path) ↔
      location.toList.head? ≠ some '/' ∧ .parent ∉ components location.toList := by
  rw [← names_iff]
  constructor
  · rintro ⟨path, given⟩
    exact (forLocation_eq_ok_iff.1 given).1
  · exact fun names => ⟨_, forLocation_eq_ok_iff.2 ⟨names, rfl⟩⟩

/-! ### Where the file is -/

/-- The name of a recipe file: the extension is added unless there is one. -/
def recipeName (name : List Char) : List Char :=
  if hasExtension name then name else name ++ recipeExtension

theorem extendLast_concat (before : List Component) (name : List Char) :
    extendLast (before ++ [.normal name]) = before ++ [.normal (recipeName name)] := by
  unfold extendLast recipeName
  rw [List.getLast?_concat, List.dropLast_concat]
  dsimp only
  split
  · rfl
  · rfl

/-- The path of a location that has a name goes where the root goes and then where the location
goes, and its last name is that of a recipe file. -/
theorem steps_forLocation_of_named {root location path : String}
    (given : forLocation root location = .ok path)
    (named : ∃ name, .normal name ∈ components location.toList) :
    ∃ before name, steps location.toList = before ++ [.normal name] ∧
      steps path.toList = steps root.toList ++ before ++ [.normal (recipeName name)] := by
  have names := (forLocation_eq_ok_iff.1 given).1
  have nonempty := (steps_ne_nil_iff names).2 named
  obtain ⟨before, last, whole⟩ := (List.eq_nil_or_concat _).resolve_left nonempty
  rw [List.concat_eq_append] at whole
  obtain ⟨name, rfl⟩ := names last (whole ▸ List.mem_append_right _ List.mem_cons_self)
  refine ⟨before, name, whole, ?_⟩
  rw [steps_forLocation given, whole, ← List.append_assoc, extendLast_concat]

/-! ### Writing the extension out -/

/-- A text ends in a name: nothing is behind the name, and nothing or a slash before it. -/
structure EndsIn (path before name : List Char) : Prop where
  written : path = before ++ name
  apart : before.getLast?.all (· == '/') = true
  solid : '/' ∉ name
  plain : Names name

namespace EndsIn

variable {path before name : List Char}

/-- What ends in a name leads through that name last. -/
theorem steps_eq (ends : EndsIn path before name) :
    steps path = steps before ++ [.normal name] := by
  rw [ends.written]
  rcases List.eq_nil_or_concat before with rfl | ⟨rest, last, rfl⟩
  · rw [List.nil_append, FilePath.steps_eq, opening_name ends.solid,
      parts_name ends.solid ends.plain]
    rfl
  · have slash : last = '/' := by simpa using ends.apart
    have nonempty : rest ++ ['/'] ≠ [] := List.append_ne_nil_of_right_ne_nil _ (List.cons_ne_nil _ _)
    rw [List.concat_eq_append, slash, FilePath.steps_eq, FilePath.steps_eq, opening_append nonempty,
      parts_slash, List.append_assoc rest, List.singleton_append, parts_append,
      parts_name ends.solid ends.plain, List.append_assoc]

/-- Whether a text leads out is decided before the name that it ends in. -/
theorem names_iff (ends : EndsIn path before name) :
    (∀ step ∈ steps path, step.IsName) ↔ ∀ step ∈ steps before, step.IsName := by
  rw [ends.steps_eq, List.forall_mem_append]
  exact and_iff_left fun step held => ⟨name, List.mem_singleton.1 held⟩

/-- A name may be written on. -/
theorem append (ends : EndsIn path before name) {more : List Char} (solid : '/' ∉ more)
    (long : 2 < (name ++ more).length) : EndsIn (path ++ more) before (name ++ more) where
  written := by rw [ends.written, List.append_assoc]
  apart := ends.apart
  solid held := (List.mem_append.1 held).elim ends.solid solid
  plain := by
    refine ⟨fun same => ?_, fun same => ?_, fun same => ?_⟩
    all_goals
      rw [same] at long
      exact absurd long (by decide)

/-- A joined path ends as the relative path does. -/
theorem join (ends : EndsIn path before name) (base : List Char) :
    EndsIn (join base path) (join base before) name := by
  have apart := ends.apart
  refine ⟨?_, ?_, ends.solid, ends.plain⟩
  · rw [ends.written]
    unfold FilePath.join
    split
    · exact (List.append_assoc base before name).symm
    · exact (List.append_assoc base ('/' :: before) name).symm
  · unfold FilePath.join
    split
    · next slash =>
        rw [List.getLast?_append]
        cases last : before.getLast? with
        | none => exact slash
        | some c => rwa [last] at apart
    · rw [List.getLast?_append, List.getLast?_cons, Option.some_or]
      cases last : before.getLast? with
      | none => rfl
      | some c => rwa [last] at apart

/-- Nothing is behind the last component. -/
theorem dropTail_eq (ends : EndsIn path before name) : dropTail path.reverse = path.reverse := by
  have turned : path.reverse = name.reverse ++ before.reverse := by
    rw [ends.written, List.reverse_append]
  cases back : name.reverse with
  | nil => exact absurd (List.reverse_eq_nil_iff.1 back) ends.plain.1
  | cons c rest =>
      have inside : ∀ character ∈ c :: rest, character ≠ '/' := fun character held slash =>
        ends.solid (List.mem_reverse.1 (back ▸ slash ▸ held))
      rw [turned, back, List.cons_append]
      unfold dropTail
      split
      · next same => exact absurd (List.cons.inj same).1 (inside c List.mem_cons_self)
      · next same => exact absurd (List.cons.inj same).1 (inside c List.mem_cons_self)
      · next same =>
          obtain ⟨rfl, behind⟩ := List.cons.inj same
          cases rest with
          | nil => exact absurd (List.reverse_eq_iff.1 back) ends.plain.2.1
          | cons second rest =>
              exact absurd (List.cons.inj behind).1
                (inside second (List.mem_cons_of_mem _ List.mem_cons_self))
      · rfl

theorem lastPiece_eq (ends : EndsIn path before name) : lastPiece path = name := by
  have stops : before.reverse.takeWhile (· != '/') = [] := by
    have apart := ends.apart
    rw [← List.head?_reverse] at apart
    cases back : before.reverse with
    | nil => rfl
    | cons c rest =>
        rw [back] at apart
        have slash : c = '/' := by simpa using apart
        rw [slash]
        rfl
  have inside : ∀ character ∈ name.reverse, (character != '/') = true := fun character held =>
    bne_iff_ne.2 fun slash => ends.solid (List.mem_reverse.1 (slash ▸ held))
  rw [lastPiece, ends.dropTail_eq, ends.written, List.reverse_append,
    List.takeWhile_append_of_pos inside, stops, List.append_nil, List.reverse_reverse]

/-- The extension is written right behind the name. -/
theorem withRecipeExtension_eq (ends : EndsIn path before name) :
    withRecipeExtension path = before ++ recipeName name := by
  have named : fileName? path = some name :=
    fileName?_eq_some.2 ⟨ends.lastPiece_eq.symm ▸ ends.plain, ends.lastPiece_eq⟩
  have whole : body path = path := by rw [body, ends.dropTail_eq, List.reverse_reverse]
  unfold withRecipeExtension recipeName
  rw [named]
  dsimp only
  split
  · exact ends.written
  · rw [whole, ends.written, List.append_assoc]

end EndsIn

/-- A name without an extension and the same name with the extension written out belong to one
recipe file. -/
theorem recipeName_append {name : List Char} (nonempty : name ≠ [])
    (bare : hasExtension name = false) :
    recipeName (name ++ recipeExtension) = recipeName name := by
  have extended : hasExtension (name ++ recipeExtension) = true := by
    rw [hasExtension, List.tail_append_of_ne_nil nonempty]
    simp [recipeExtension]
  rw [recipeName, recipeName, if_pos extended, bare]
  rfl

/-- A location that ends in a name without an extension leads to the file to which it leads with the
extension written out. -/
theorem locate_append {location before name : List Char} (root : List Char)
    (ends : EndsIn location before name) (bare : hasExtension name = false) :
    locate root (location ++ recipeExtension) = locate root location := by
  have written : EndsIn (location ++ recipeExtension) before (name ++ recipeExtension) :=
    ends.append (by decide) (by simp [recipeExtension])
  have stays : (components (location ++ recipeExtension)).all Component.staysInside =
      (components location).all Component.staysInside := by
    rw [Bool.eq_iff_iff, staysInside_iff, staysInside_iff, written.names_iff, ends.names_iff]
  have same : withRecipeExtension (join root (location ++ recipeExtension)) =
      withRecipeExtension (join root location) := by
    rw [(written.join root).withRecipeExtension_eq, (ends.join root).withRecipeExtension_eq,
      recipeName_append ends.plain.1 bare]
  rw [locate, locate, stays, same]

/-- Locations name one file for a recipe, whatever the root. A location has a file exactly if it is
not absolute and never goes up. If it has a name, the path of the file goes where the root goes and
then where the location goes, and only its last name is extended, unless it has an extension. So
writing the extension out behind a name that has none leads to the same file. -/
theorem forLocation_one_file (root : String) :
    (∀ location, (∃ path, forLocation root location = .ok path) ↔
      location.toList.head? ≠ some '/' ∧ .parent ∉ components location.toList) ∧
    (∀ location path, forLocation root location = .ok path →
      (∃ name, .normal name ∈ components location.toList) →
        ∃ before name, steps location.toList = before ++ [.normal name] ∧
          steps path.toList = steps root.toList ++ before ++ [.normal (recipeName name)]) ∧
    ∀ location before name, EndsIn location.toList before name → hasExtension name = false →
      (forLocation root (location ++ ".fiz")).toOption = (forLocation root location).toOption := by
  refine ⟨exists_forLocation_iff root, fun _ _ => steps_forLocation_of_named, ?_⟩
  intro location before name ends bare
  have same : locate root.toList (location ++ ".fiz").toList = locate root.toList location.toList := by
    rw [String.toList_append]
    exact locate_append root.toList ends bare
  rw [forLocation, forLocation, same]
  cases locate root.toList location.toList with
  | none => rfl
  | some path => rfl

theorem forLocation_one_file_of_bread :
    (∃ path, forLocation "/recipes/." "./sub//bread" = .ok path ∧
      ∃ before name, steps "./sub//bread".toList = before ++ [.normal name] ∧
        steps path.toList = steps "/recipes/.".toList ++ before ++ [.normal (recipeName name)]) ∧
    EndsIn "./sub//bread".toList "./sub//".toList "bread".toList ∧
    hasExtension "bread".toList = false ∧
    (forLocation "/recipes/." ("./sub//bread" ++ ".fiz")).toOption =
      (forLocation "/recipes/." "./sub//bread").toOption := by
  obtain ⟨found, leads, same⟩ := forLocation_one_file "/recipes/."
  have named : .normal "bread".toList ∈ components "./sub//bread".toList := by decide
  have ends : EndsIn "./sub//bread".toList "./sub//".toList "bread".toList :=
    ⟨by decide, by decide, by decide, by decide, by decide, by decide⟩
  obtain ⟨path, given⟩ := (found "./sub//bread").2 (by decide)
  exact ⟨⟨path, given, leads _ path given ⟨_, named⟩⟩, ends, by decide, same _ _ _ ends (by decide)⟩

example : forLocation "" "bread/" = .ok "bread.fiz" ∧
    forLocation "" "bread/.fiz" = .ok "bread/.fiz.fiz" := ⟨rfl, rfl⟩

end RecipeGraph.FilePath
