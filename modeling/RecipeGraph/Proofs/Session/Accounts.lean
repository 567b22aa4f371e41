/-
# Every level is accounted for

Whatever recipe is compiled under whatever chain of imports, with whichever resolver that is ready
for use, its level holds what the rules say of its statements and nothing besides: one node for each
call, wherever among the arguments it stands, and for each argument one edge into the element that
it is passed to or one warning. The same goes for the levels nested in it. What a caching resolver
keeps has to be sound for that, and so it is in every session.
-/

import RecipeGraph.Proofs.Build.Additions
import RecipeGraph.Proofs.Session.Soundness

namespace RecipeGraph

/-- The statements of a recipe account for its level: for the nodes, the edges and the nested levels
in their order, for what its variables stand for, and for the warnings. All elements and edges of
the graph are different. -/
theorem Bundled.arguments_accounted (bundled : Bundled) :
    (∀ requests, Cache.Sound (bundled.serve requests).2.store) ∧
      ∀ (recipe : Recipe) (room : Nat) (chain : ImportChain) (session : Session Cache),
        Cache.Sound session.store →
        let resolve := bundled.resolver.resolveWithin room
        let work := recipe.build resolve chain session
        work.level.ids.Nodup ∧ ∃ addition,
          Statement.ListBring resolve.Delivers work.level.id .empty recipe.statements addition ∧
            work.level.Holds addition ∧ work.found.entries = addition.warnings := by
  refine ⟨fun requests => (bundled.serve_sound requests).2.store, ?_⟩
  intro recipe room chain session sound
  have resolves := bundled.resolver_sound.resolveWithin room
  have kept : session.Sound Cache.Sound session.log := ⟨fun _ => .inl, sound⟩
  exact recipe.build_accounted resolves chain kept

/-- A recipe that passes calls and variables on, plain and through levels, known and unknown ones.
The import binds one of its variables anew. -/
def Recipe.supper : Recipe :=
  (parseLenient ("salt = mine()\n@ 'pantry'\npepper = salt\n" ++
    "use(salt, chop(pepper, ghost), shop.oil, shop.ghost)\nlost = ghost\n" ++
    "pot[soup = boil(salt)](mix(pepper))\nserve(pot.soup, lost, salt)")).1

/-- A caching resolver for what that recipe imports. -/
def Bundled.pantry : Bundled :=
  .caching (.ofTable (.ofList [("pantry", "salt = grind()\nshop[oil = press()]")]))

namespace Bundled

private theorem supper_sizes :
    let work := Recipe.supper.build (pantry.resolver.resolveWithin 4) (.start 4) (.start .empty)
    work.level.nodes.size = 6 ∧ work.level.edges.size = 8 ∧
      work.found.entries.map Diagnostic.code = [some .undefinedVariable, some .unresolvedPath,
        some .undefinedVariable, some .undefinedVariable, some .undefinedVariable] := by
  decide +kernel

/-- Eleven arguments of the recipe come to eight edges and three warnings. The other two warnings are
for the alias and for the argument in the nested level. -/
theorem arguments_accounted_of_supper :
    Cache.Sound (Session.start (.empty : Cache)).store ∧
      let resolve := pantry.resolver.resolveWithin 4
      let work := Recipe.supper.build resolve (.start 4) (.start .empty)
      work.level.nodes.size = 6 ∧ work.level.edges.size = 8 ∧
        work.found.entries.map Diagnostic.code = [some .undefinedVariable, some .unresolvedPath,
          some .undefinedVariable, some .undefinedVariable, some .undefinedVariable] ∧
        ∃ addition,
          Statement.ListBring resolve.Delivers work.level.id .empty Recipe.supper.statements
            addition ∧
          work.level.Holds addition ∧ work.found.entries = addition.warnings := by
  obtain ⟨nodes, edges, codes⟩ := supper_sizes
  obtain ⟨-, accounted⟩ := arguments_accounted pantry
  have here := accounted Recipe.supper 4 (.start 4) (.start .empty) Cache.sound_empty
  exact ⟨Cache.sound_empty, nodes, edges, codes, here.2⟩

end Bundled

end RecipeGraph
