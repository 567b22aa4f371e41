/-
# Where a path leads

Repeated slashes and dots make many texts for one path, and the operations on paths treat them
differently: joining keeps them, finding the last name skips them, and setting an extension drops
those that follow the last name. What a path leads through is the same for all of them, though: the
list of its components without the dots. Here every operation is described by what it does to that
list. The dots and slashes behind the last name are where care is needed, since they are taken off
from the end of the path, and so nothing can be said by recursion on the path itself.
-/

import RecipeGraph.FilePath

namespace RecipeGraph

namespace Text

variable {separator : Char}

/-- Cutting at a separator in the middle cuts both sides on their own. -/
theorem pieces_append (separator : Char) (before behind : List Char) :
    pieces separator (before ++ separator :: behind) =
      pieces separator before ++ pieces separator behind := by
  rw [pieces_eq_splitOn, pieces_eq_splitOn, pieces_eq_splitOn]
  exact List.splitOnP_append_cons before behind (beq_self_eq_true separator)

theorem pieces_of_not_mem {text : List Char} (absent : separator ∉ text) :
    pieces separator text = [text] := by
  rw [pieces_eq_splitOn, List.splitOn_eq_singleton absent]

end Text

namespace FilePath

/-- A component that is a name. -/
def Component.IsName (component : Component) : Prop :=
  ∃ name, component = .normal name

/-- The components of a path, dots left out. -/
def steps (path : List Char) : List Component :=
  (components path).filter (· ≠ .current)

/-! ### Steps from slash to slash -/

/-- What a path begins with, before any of its names. -/
def opening (path : List Char) : List Component :=
  if path.head? = some '/' then [.root] else []

/-- The components that the pieces between the slashes stand for. -/
def parts (path : List Char) : List Component :=
  (pieces path).filterMap componentOf?

theorem opening_append {before : List Char} (nonempty : before ≠ []) (behind : List Char) :
    opening (before ++ behind) = opening before := by
  obtain ⟨c, rest, rfl⟩ := List.exists_cons_of_ne_nil nonempty
  rfl

theorem opening_of_relative {path : List Char} (relative : ∀ rest, path = '/' :: rest → False) :
    opening path = [] :=
  if_neg fun slash => (List.head?_eq_some_iff.1 slash).elim relative

theorem componentOf?_ne_current (piece : List Char) : componentOf? piece ≠ some .current := by
  unfold componentOf?
  split <;> simp

theorem parts_current (path : List Char) : (parts path).filter (· ≠ .current) = parts path := by
  rw [List.filter_eq_self]
  intro component held
  obtain ⟨piece, _, stands⟩ := List.mem_filterMap.1 held
  have other : component ≠ .current := fun same => componentOf?_ne_current piece (same ▸ stands)
  exact decide_eq_true other

/-- A path leads through what it begins with and then through its parts. -/
theorem steps_eq (path : List Char) : steps path = opening path ++ parts path := by
  have kept := parts_current path
  unfold steps components
  split
  · rw [List.filter_cons_of_pos (by decide)]
    exact congrArg (Component.root :: ·) kept
  · next path _ _ rest relative dot =>
      have same : parts path = rest.filterMap componentOf? := by
        rw [parts, dot]
        rfl
      rw [List.filter_cons_of_neg (by decide), ← same, kept, opening_of_relative relative]
      rfl
  · next path _ _ relative _ =>
      rw [opening_of_relative relative]
      exact kept

theorem parts_append (before behind : List Char) :
    parts (before ++ '/' :: behind) = parts before ++ parts behind := by
  rw [parts, pieces, Text.pieces_append, List.filterMap_append]
  rfl

/-- A slash at the end leads nowhere else. -/
theorem parts_slash (path : List Char) : parts (path ++ ['/']) = parts path := by
  rw [parts_append]
  exact List.append_nil _

/-- Nor does a dot behind a slash. -/
theorem parts_dot (path : List Char) : parts (path ++ ['/', '.']) = parts path := by
  rw [parts_append]
  exact List.append_nil _

/-- A piece between slashes that stands for a name. -/
def Names (piece : List Char) : Prop :=
  piece ≠ [] ∧ piece ≠ ['.'] ∧ piece ≠ ['.', '.']

/-- If it has no slash, it is the only component. -/
theorem parts_name {name : List Char} (solid : '/' ∉ name) (plain : Names name) :
    parts name = [.normal name] := by
  have stands : componentOf? name = some (.normal name) := by
    unfold componentOf?
    split
    · exact absurd rfl plain.1
    · exact absurd rfl plain.2.1
    · exact absurd rfl plain.2.2
    · rfl
  rw [parts, pieces, Text.pieces_of_not_mem solid, List.filterMap_cons, stands]
  rfl

theorem opening_name {name : List Char} (solid : '/' ∉ name) : opening name = [] :=
  if_neg fun slash => solid (List.mem_of_mem_head? slash)

/-! ### Joining -/

/-- Joining a relative path goes on from where the other path leads. -/
theorem steps_join (base : List Char) {relative : List Char} (inside : opening relative = []) :
    steps (join base relative) = steps base ++ steps relative := by
  rw [steps_eq, steps_eq, steps_eq, inside, List.nil_append, List.append_assoc]
  unfold join
  rcases List.eq_nil_or_concat base with rfl | ⟨rest, last, rfl⟩
  · exact congrArg (· ++ parts relative) inside
  · rw [List.concat_eq_append]
    have nonempty : rest ++ [last] ≠ [] := List.append_ne_nil_of_right_ne_nil _ (List.cons_ne_nil _ _)
    rw [List.getLast?_concat, Option.all_some]
    split
    · next slash =>
        rw [beq_iff_eq] at slash
        subst slash
        rw [opening_append nonempty, List.append_assoc, List.singleton_append, parts_append,
          parts_slash]
    · rw [opening_append nonempty, parts_append]

/-- A location stays inside if it begins with no slash and leads through nothing but names. -/
theorem staysInside_iff (location : List Char) :
    (components location).all Component.staysInside = true ↔
      ∀ step ∈ steps location, step.IsName := by
  simp only [List.all_eq_true, steps, List.mem_filter, decide_eq_true_eq]
  refine ⟨fun stays step ⟨held, other⟩ => ?_, fun names step held => ?_⟩
  · cases step with
    | root => exact absurd (stays _ held) (by decide)
    | current => exact absurd rfl other
    | parent => exact absurd (stays _ held) (by decide)
    | normal name => exact ⟨name, rfl⟩
  · by_cases dot : step = .current
    · rw [dot]
      rfl
    · obtain ⟨name, rfl⟩ := names step ⟨held, dot⟩
      rfl

/-- A path that leads through nothing but names begins with no slash. -/
theorem opening_of_names {path : List Char} (names : ∀ step ∈ steps path, step.IsName) :
    opening path = [] := by
  unfold opening
  split
  · next slash =>
      have first : .root ∈ steps path := by
        rw [steps_eq, opening, if_pos slash]
        exact List.mem_cons_self
      obtain ⟨name, wrong⟩ := names _ first
      cases wrong
  · rfl

/-! ### The end of a path -/

/-- What is dropped behind the last component leads nowhere. -/
theorem steps_body (path : List Char) : steps (body path) = steps path := by
  suffices turned : ∀ back, steps (dropTail back).reverse = steps back.reverse by
    rw [body, turned, List.reverse_reverse]
  intro back
  fun_induction dropTail back with
  | case1 => rfl
  | case2 rest longer step =>
      have nonempty : rest.reverse ≠ [] := fun empty =>
        longer (List.reverse_eq_nil_iff.1 empty)
      rw [step, List.reverse_cons, steps_eq, steps_eq, opening_append nonempty, parts_slash]
  | case3 rest step =>
      have nonempty : rest.reverse ++ ['/'] ≠ [] :=
        List.append_ne_nil_of_right_ne_nil _ (List.cons_ne_nil _ _)
      rw [step, List.reverse_cons, List.reverse_cons, List.reverse_cons, steps_eq, steps_eq,
        opening_append nonempty, parts_slash, List.append_assoc, List.singleton_append, parts_dot]
  | case4 => rfl

/-- Behind the last component nothing is left but, perhaps, the slash that the path starts with. -/
theorem dropTail_bare (back : List Char) :
    dropTail back = ['/'] ∨
      ∀ rest, dropTail back ≠ '/' :: rest ∧ dropTail back ≠ '.' :: '/' :: rest := by
  fun_induction dropTail back with
  | case1 => exact .inl rfl
  | case2 rest longer step => exact step
  | case3 rest step => exact step
  | case4 path alone slash dot =>
      exact .inr fun rest => ⟨fun same => slash _ same, fun same => dot _ same⟩

/-- The piece that a path ends with. -/
def lastPiece (path : List Char) : List Char :=
  ((dropTail path.reverse).takeWhile (· != '/')).reverse

theorem lastPiece_solid (path : List Char) : '/' ∉ lastPiece path := fun held => by
  have kept := List.all_eq_true.1 List.all_takeWhile '/' (List.mem_reverse.1 held)
  simp at kept

/-- Whatever is written behind a path is written behind its last piece. -/
theorem steps_body_append (path : List Char) : ∃ before, ∀ tail, '/' ∉ tail →
    steps (body path ++ tail) = before ++ parts (lastPiece path ++ tail) := by
  have whole := List.takeWhile_append_dropWhile (p := (· != '/')) (l := dropTail path.reverse)
  cases behind : (dropTail path.reverse).dropWhile (· != '/') with
  | nil =>
      have alone : body path = lastPiece path := by
        rw [behind, List.append_nil] at whole
        rw [body, lastPiece, whole]
      refine ⟨[], fun tail solid => ?_⟩
      have flat : '/' ∉ lastPiece path ++ tail := fun held =>
        (List.mem_append.1 held).elim (lastPiece_solid path) solid
      rw [alone, steps_eq, opening_name flat]
  | cons c rest =>
      have slash : c = '/' := by
        have stopped := List.head?_dropWhile_not (· != '/') (dropTail path.reverse)
        simpa [behind] using stopped
      have split : body path = rest.reverse ++ '/' :: lastPiece path := by
        rw [behind, slash] at whole
        calc body path = ((dropTail path.reverse).takeWhile (· != '/') ++ '/' :: rest).reverse :=
              congrArg List.reverse whole.symm
          _ = rest.reverse ++ '/' :: lastPiece path := by simp [lastPiece]
      refine ⟨opening (rest.reverse ++ ['/']) ++ parts rest.reverse, fun tail _ => ?_⟩
      have grouped : body path ++ tail = (rest.reverse ++ ['/']) ++ (lastPiece path ++ tail) := by
        simp [split]
      have nonempty : rest.reverse ++ ['/'] ≠ [] :=
        List.append_ne_nil_of_right_ne_nil _ (List.cons_ne_nil _ _)
      rw [steps_eq, grouped, opening_append nonempty, List.append_assoc rest.reverse,
        List.singleton_append, parts_append, List.append_assoc]

theorem steps_eq_lastPiece (path : List Char) :
    ∃ before, steps path = before ++ parts (lastPiece path) := by
  obtain ⟨before, written⟩ := steps_body_append path
  have last := written [] List.not_mem_nil
  exact ⟨before, by rwa [List.append_nil, List.append_nil, steps_body] at last⟩

/-- The last piece of a path is empty or a dot only where there is nothing before it, either. -/
theorem body_of_lastPiece {path : List Char} (bare : lastPiece path = [] ∨ lastPiece path = ['.']) :
    body path = ['/'] ∨ body path = [] ∨ body path = ['.'] := by
  rcases dropTail_bare path.reverse with alone | further
  · exact .inl (congrArg List.reverse alone)
  cases kept : dropTail path.reverse with
  | nil => exact .inr (.inl (congrArg List.reverse kept))
  | cons c rest =>
      rw [kept] at further
      have other : (c != '/') = true := bne_iff_ne.2 fun same =>
        (further rest).1 (congrArg (· :: rest) same)
      have piece : lastPiece path = (c :: rest.takeWhile (· != '/')).reverse := by
        rw [lastPiece, kept, List.takeWhile_cons, if_pos other]
      have dot : c :: rest.takeWhile (· != '/') = ['.'] := by
        rcases bare with none | one
        · simp [piece] at none
        · rwa [piece, List.reverse_eq_iff] at one
      obtain ⟨rfl, ended⟩ := List.cons.inj dot
      cases rest with
      | nil => exact .inr (.inr (congrArg List.reverse kept))
      | cons follower rest =>
          have slash : follower = '/' := by
            rw [List.takeWhile_cons] at ended
            split at ended
            · cases ended
            · next stopped => exact Decidable.byContradiction fun other => stopped (bne_iff_ne.2 other)
          exact absurd (congrArg ('.' :: · :: rest) slash) (further rest).2

/-- Such a path leads through no name. -/
theorem nameless_of_lastPiece {path : List Char} (bare : lastPiece path = [] ∨ lastPiece path = ['.'])
    (name : List Char) : .normal name ∉ steps path := by
  have slash : steps ['/'] = [.root] := rfl
  have empty : steps [] = [] := rfl
  have dot : steps ['.'] = [] := rfl
  rw [← steps_body]
  rcases body_of_lastPiece bare with short | short | short <;> simp [short, slash, empty, dot]

theorem fileName?_eq_some {path name : List Char} :
    fileName? path = some name ↔ Names (lastPiece path) ∧ lastPiece path = name := by
  change (if lastPiece path = [] ∨ lastPiece path = ['.'] ∨ lastPiece path = ['.', '.'] then none
    else some (lastPiece path)) = some name ↔ _
  split
  · next special => simp [Names, ← not_or, special]
  · next plain => simp [Names, ← not_or, plain]

/-- The last component is found at the end of the path exactly where it is a name. -/
theorem fileName?_eq_some_iff (path name : List Char) :
    fileName? path = some name ↔ (steps path).getLast? = some (.normal name) := by
  obtain ⟨before, whole⟩ := steps_eq_lastPiece path
  rw [fileName?_eq_some]
  constructor
  · rintro ⟨plain, rfl⟩
    rw [whole, parts_name (lastPiece_solid path) plain, List.getLast?_concat]
  · intro last
    have plain : Names (lastPiece path) := by
      refine ⟨fun bare => ?_, fun bare => ?_, fun up => ?_⟩
      · exact nameless_of_lastPiece (.inl bare) name (List.mem_of_getLast? last)
      · exact nameless_of_lastPiece (.inr bare) name (List.mem_of_getLast? last)
      · have parent : parts ['.', '.'] = [.parent] := rfl
        rw [whole, up, parent, List.getLast?_concat] at last
        cases last
    rw [whole, parts_name (lastPiece_solid path) plain, List.getLast?_concat] at last
    exact ⟨plain, by simpa using last⟩

/-! ### Setting the extension -/

/-- What setting the extension of recipe files does to the components. -/
def extendLast (steps : List Component) : List Component :=
  match steps.getLast? with
  | some (.normal name) =>
    if hasExtension name then steps else steps.dropLast ++ [.normal (name ++ recipeExtension)]
  | _ => steps

theorem extendLast_append (before : List Component) {behind : List Component}
    (nonempty : behind ≠ []) : extendLast (before ++ behind) = before ++ extendLast behind := by
  have last : (before ++ behind).getLast? = behind.getLast? := by
    rw [List.getLast?_append, List.getLast?_eq_some_getLast nonempty, Option.some_or]
  unfold extendLast
  rw [last, List.dropLast_append_of_ne_nil nonempty]
  split
  · split
    · rfl
    · exact List.append_assoc ..
  · rfl

/-- Setting the extension of a path that ends with a name changes that name and nothing before
it. -/
theorem steps_body_extended {path name : List Char} (named : fileName? path = some name) :
    steps (body path ++ recipeExtension) =
      (steps path).dropLast ++ [.normal (name ++ recipeExtension)] := by
  obtain ⟨plain, rfl⟩ := fileName?_eq_some.1 named
  obtain ⟨before, written⟩ := steps_body_append path
  have whole : steps path = before ++ [.normal (lastPiece path)] := by
    have last := written [] List.not_mem_nil
    rwa [List.append_nil, List.append_nil, steps_body,
      parts_name (lastPiece_solid path) plain] at last
  have solid : '/' ∉ lastPiece path ++ recipeExtension := fun held =>
    (List.mem_append.1 held).elim (lastPiece_solid path) (by decide)
  have long : 4 ≤ (lastPiece path ++ recipeExtension).length := by
    rw [List.length_append]
    exact Nat.le_add_left ..
  have name : Names (lastPiece path ++ recipeExtension) :=
    ⟨fun same => by simp [same] at long, fun same => by simp [same] at long,
      fun same => by simp [same] at long⟩
  rw [written _ (by decide), parts_name solid name, whole, List.dropLast_concat]

theorem steps_withRecipeExtension (path : List Char) :
    steps (withRecipeExtension path) = extendLast (steps path) := by
  unfold withRecipeExtension
  cases named : fileName? path with
  | none =>
      have nameless : ∀ name, (steps path).getLast? ≠ some (.normal name) := fun name last =>
        absurd ((fileName?_eq_some_iff path name).2 last) (by simp [named])
      change steps path = extendLast (steps path)
      unfold extendLast
      split
      · next name last => exact absurd last (nameless name)
      · rfl
  | some name =>
      have last := (fileName?_eq_some_iff path name).1 named
      have extended := steps_body_extended named
      simp only [extendLast, last]
      split
      · rfl
      · exact extended

end FilePath

end RecipeGraph
