/-
# Names of styles

A style can only be declared under a name that is written in a text, and names in texts have no
dots. A level registers the styles that are declared in its own text, and those of the graphs that
it absorbs, which come from texts themselves. So no style is ever kept under a name that could be
taken for a path of several segments.
-/

import RecipeGraph.Proofs.Build.Absorbed
import RecipeGraph.Proofs.Parser.Names
import RecipeGraph.Proofs.Session.Soundness

namespace RecipeGraph

variable {σ : Type}

theorem Parser.IsName.undotted {name : String} (isName : IsName name) : Undotted name := by
  obtain ⟨first, others, same, start, parts⟩ := isName
  rw [Undotted, same, List.mem_cons, not_or]
  constructor
  · rintro rfl
    cases start
  · intro held
    cases parts _ held

/-- The styles that a text declares have names without dots. -/
theorem Recipe.parseLenient_declare (source : String) :
    ∀ statement ∈ (parseLenient source).1.statements, statement.value.Declares Undotted := by
  intro statement held name block same
  have named := Statement.listNamed_iff.1 (Recipe.parseLenient_named source) statement held
  rw [same] at named
  exact named.1.undotted

/-! ### Styles of graphs -/

/-- The styles of a level are those that its statements declare and those of what it imports. -/
theorem Recipe.stylesNamed_build {resolve : Resolve σ} (resolves : resolve.Sound fun _ => True)
    {named : String → Prop} (gives : resolve.Gives (Dag.StylesNamed named)) (recipe : Recipe)
    (declare : ∀ statement ∈ recipe.statements, statement.value.Declares named)
    (chain : ImportChain) (session : Session σ) :
    (recipe.build resolve chain session).level.StylesNamed named := by
  have opened : Work.Sound (fun _ => True) session.log session.supply
      ⟨.empty session.freshId.1 "", .empty, chain, session.freshId.2⟩ :=
    ⟨.empty session.supply "", nofun, ⟨fun _ => .inl, trivial⟩⟩
  exact (opened.grows_placeAll resolves gives recipe.statements named declare).level.stylesNamed nofun

/-- What a recipe imports keeps no style under a name with a dot. -/
theorem Resolver.plain_gives_undotted (loader : Loader) (room : Nat) :
    ((plain loader).resolveWithin room : Resolve σ).Gives (Dag.StylesNamed Undotted) := by
  induction room with
  | zero => exact fun _ _ _ _ impossible => nomatch impossible
  | succ room step =>
      intro location chain session graph given
      cases found : loader location with
      | error failure =>
          rw [plain_resolveWithin_of_missing found] at given
          cases given
      | ok source =>
          rw [plain_resolveWithin_of_found room chain found] at given
          unfold compileSource at given
          cases read : Recipe.parse source with
          | error failure =>
              rw [read] at given
              cases given
          | ok recipe =>
              rw [read] at given
              cases given
              have lenient := (Recipe.parse_ok read).1
              exact recipe.stylesNamed_build ((plain_sound loader).resolveWithin room) step
                (lenient ▸ Recipe.parseLenient_declare source) chain _

end RecipeGraph
