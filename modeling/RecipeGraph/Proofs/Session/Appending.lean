/-
# Recipes that go on

A recipe may be built up to some statement and, another time, to its end. The two times need not
belong to one session: a resolver with a cache may have been asked for anything before, and for
something else the second time. Still the longer build begins with the shorter one, up to a renaming
of identifiers, and the diagnostics of the shorter one come first.

In one session nothing has to be renamed, whatever the chain. Across sessions the shorter build is
compared with what building the same statements comes to in the session of the longer one; a build
without memory, in a session of its own, stands between the two.
-/

import RecipeGraph.Proofs.Build.Appending
import RecipeGraph.Proofs.Session.Accounts
import RecipeGraph.Proofs.Session.Transparent

namespace RecipeGraph

variable {σ τ υ : Type}

namespace Work.Matched

variable {R S : Id → Id → Prop} {start start' start'' : IdSupply} {parent parent' parent'' : Option Id}
  {work : Work σ} {middle : Work τ} {other : Work υ}

theorem flip (matched : Matched R start start' parent parent' work middle) :
    Matched (flip R) start' start parent' parent middle work where
  pairing := matched.pairing.swap
  level := matched.level.flip
  found := matched.found.symm
  placed := matched.placed'
  placed' := matched.placed

theorem comp (one : Matched R start start' parent parent' work middle)
    (two : Matched S start' start'' parent' parent'' middle other) :
    Matched (Relation.Comp R S) start start'' parent parent'' work other where
  pairing := one.pairing.comp two.pairing
  level := one.level.comp two.level
  found := one.found.trans two.found
  placed := one.placed
  placed' := two.placed'

/-- Where two builders of whole recipes match, one level is the other one renamed. -/
theorem exists_perm (matched : Matched R start start' none none work middle) :
    ∃ permutation : Equiv.Perm Id, work.level.rename permutation = middle.level := by
  obtain ⟨permutation, exchanged⟩ := matched.pairing.exists_perm
  refine ⟨permutation, matched.level.eq_rename exchanged ?_⟩
  rw [matched.placed, matched.placed']
  exact .none

end Work.Matched

/-- Where no import is answered, what builders import does not depend on their sessions. -/
theorem Resolver.noImports_inStep (room : Nat) :
    Resolve.InStep ((noImports : Resolver σ).resolveWithin room)
      ((noImports : Resolver τ).resolveWithin room)
      (fun outside other => other.chain = outside.chain) fun _ => False := by
  intro location chain session chain' session' same
  change chain' = chain at same
  subst same
  refine .inr ⟨rfl, ?_⟩
  cases admitted : chain'.mayEnter location with
  | error failure =>
      rw [Resolve.attempt_of_refused admitted, Resolve.attempt_of_refused admitted]
      exact ⟨rfl, Nat.le_refl _, Nat.le_refl _, .failed failure⟩
  | ok =>
      rw [Resolve.attempt_of_admitted admitted, Resolve.attempt_of_admitted admitted]
      cases room with
      | zero => exact ⟨rfl, Nat.le_refl _, Nat.le_refl _, .failed _⟩
      | succ room => exact ⟨rfl, Nat.le_refl _, Nat.le_refl _, .failed _⟩

namespace Bundled

/-- Builds statements under a chain, with the room for imports that the chain leaves. -/
def buildUnder (bundled : Bundled) (chain : ImportChain) (statements : List (Spanned Statement))
    (session : Session Cache) : Work Cache :=
  Recipe.build ⟨statements⟩ (bundled.resolver.resolveUnder chain) chain session

/-- What a session of a resolver may have come to: requests have been answered in it, and recipes
have been built under chains of imports. -/
inductive Reached (bundled : Bundled) : Session Cache → Prop where
  | start : Reached bundled (.start .empty)
  | served {session : Session Cache} (before : Reached bundled session) (request : Request) :
      Reached bundled (request.serve bundled.resolver session).2
  | built {session : Session Cache} (before : Reached bundled session) {chain : ImportChain}
      (settled : chain.Settled) (shallow : chain.depth ≤ chain.maxDepth)
      (statements : List (Spanned Statement)) :
      Reached bundled (bundled.buildUnder chain statements session).session

namespace Reached

variable {bundled : Bundled} {loader : Loader} {session session' : Session Cache}

/-- Whatever has happened in a session, it is sound. -/
theorem sound (reached : bundled.Reached session) : session.Sound Cache.Sound [] := by
  induction reached with
  | start => exact ⟨nofun, Cache.sound_empty⟩
  | served before request step => exact (request.serve_sound bundled.resolver_sound step).2
  | @built _ before chain settled shallow statements step =>
      exact (Recipe.build_sound (bundled.resolver_sound.resolveWithin _) ⟨statements⟩ chain
        step).session

/-- Whatever has happened in a session, its cache is faithful. -/
theorem faithful (reached : (Bundled.caching loader).Reached session) :
    Cache.Faithful Unit loader session.store := by
  induction reached with
  | start => exact Cache.faithful_empty loader
  | served before request step => exact (request.serve_follows (.start ()) step).faithful
  | built before settled shallow statements step =>
      exact (Recipe.build_follows settled shallow ⟨statements⟩ (.start ()) step).1.faithful

/-- Whatever has happened in two sessions, building the same in both comes to the same. -/
theorem build_again (reached : bundled.Reached session) (reached' : bundled.Reached session')
    {chain : ImportChain} (settled : chain.Settled) (shallow : chain.depth ≤ chain.maxDepth)
    (statements : List (Spanned Statement)) :
    ∃ R, Work.Matched R session.supply session'.supply none none
      (bundled.buildUnder chain statements session)
      (bundled.buildUnder chain statements session') := by
  cases bundled with
  | plain loader =>
      -- The build that both are compared with has a cache of its own, with nothing in it.
      have empty : Cache.Faithful Cache loader (Session.start .empty).store :=
        Cache.faithful_empty loader
      obtain ⟨-, R, one⟩ := Recipe.build_follows settled shallow ⟨statements⟩ session empty
      obtain ⟨-, S, two⟩ := Recipe.build_follows settled shallow ⟨statements⟩ session' empty
      exact ⟨_, one.comp two.flip⟩
  | caching loader =>
      obtain ⟨-, R, one⟩ := Recipe.build_follows settled shallow ⟨statements⟩ (.start ())
        reached.faithful
      obtain ⟨-, S, two⟩ := Recipe.build_follows settled shallow ⟨statements⟩ (.start ())
        reached'.faithful
      exact ⟨_, one.flip.comp two⟩
  | noImports =>
      have joined : (Outside.mk chain session'.journal session'.store).chain =
          (Outside.mk chain session.journal session.store).chain := rfl
      rcases Recipe.build_alike (Resolver.noImports_inStep _) (fun _ _ _ => id) ⟨statements⟩ joined
        with away | ⟨-, matched⟩
      · exact away.elim
      · exact matched

/-- In one session, the level of all the statements begins with that of the first ones. -/
theorem build_begins (reached : bundled.Reached session) (chain : ImportChain)
    (first second : List (Spanned Statement)) :
    let alone := bundled.buildUnder chain first session
    let whole := bundled.buildUnder chain (first ++ second) session
    alone.level.Begins whole.level ∧ alone.found.entries <+: whole.found.entries :=
  Recipe.build_append_begins (bundled.resolver_sound.resolveWithin _) chain reached.sound first second

end Reached

/-- Later statements never change what earlier ones have built. In one session, the level of all the
statements begins with the level of the first ones, and the diagnostics of these come first, whatever
the chain. In two sessions of a resolver this holds up to one renaming of identifiers, under every
chain to which locations have been added one by one. -/
theorem build_appends {bundled : Bundled} {session : Session Cache}
    (reached : bundled.Reached session) (chain : ImportChain)
    (first second : List (Spanned Statement)) :
    let alone := bundled.buildUnder chain first session
    let whole := bundled.buildUnder chain (first ++ second)
    (alone.level.Begins (whole session).level ∧
      alone.found.entries <+: (whole session).found.entries) ∧
    (chain.Settled → chain.depth ≤ chain.maxDepth → ∀ session', bundled.Reached session' →
      ∃ permutation : Equiv.Perm Id,
        (alone.level.rename permutation).Begins (whole session').level ∧
        alone.found.entries <+: (whole session').found.entries) := by
  intro alone whole
  refine ⟨reached.build_begins chain first second, fun settled shallow session' reached' => ?_⟩
  obtain ⟨R, matched⟩ := reached.build_again reached' settled shallow first
  obtain ⟨permutation, renamed⟩ := matched.exists_perm
  obtain ⟨level, found⟩ := reached'.build_begins chain first second
  exact ⟨permutation, renamed.symm ▸ level, matched.found ▸ found⟩

/-- The first statements of a recipe, and what goes on from them: it imports the same text again,
binds a variable, a style and a keyword anew, and opens a second level of the same name. -/
def breakfast : List (Spanned Statement) × List (Spanned Statement) :=
  ((Recipe.parseLenient ("#s\x7ba: 1\x7d\n%add\x7b#s\x7d\nsalt = mine(ghost)\n@ 'pantry'\n" ++
      "shop[oil = press(salt)]")).1.statements,
    (Recipe.parseLenient ("@ 'pantry'\nsalt = boil(salt)\n#s\x7ba: 2\x7d\n%add\x7b#hot\x7d\n" ++
      "shop[oil = fry(ghost)]\nuse(shop.oil, salt)")).1.statements)

/-- A session in which the first statements have been built already, so that their import is kept. -/
theorem reached_breakfast :
    pantry.Reached (pantry.buildUnder (.start 4) breakfast.1 (.start .empty)).session :=
  Reached.start.built (ImportChain.settled_start 4) (by decide) breakfast.1

/-- The session that goes on has a cache with what the first one had to compile, and the chain is not
empty. Registering the variable, the style and the keyword anew changes what they stand for, and not
the names that come first. -/
theorem build_appends_of_breakfast :
    let chain := (ImportChain.start 4).entering "table"
    let session := (pantry.buildUnder (.start 4) breakfast.1 (.start .empty)).session
    let alone := pantry.buildUnder chain breakfast.1 (.start .empty)
    let whole := pantry.buildUnder chain (breakfast.1 ++ breakfast.2) session
    let salt := fun level : Dag => (level.variableIds.get? "salt").bind level.elementName?
    (((alone.level.nodes.size = 2 ∧ alone.level.children.size = 2 ∧
          alone.found.entries.length = 2) ∧
        whole.level.nodes.size = 5 ∧ whole.level.children.size = 4 ∧
          whole.found.entries.length = 3) ∧
      (salt alone.level = some "grind" ∧ salt whole.level = some "boil") ∧
      (alone.level.styles.entries = [("s", ⟨[("a", "1")]⟩)] ∧
        whole.level.styles.entries = [("s", ⟨[("a", "2")]⟩)]) ∧
      (alone.level.bindings.entries = [("add", [.single "s"])] ∧
        whole.level.bindings.entries = [("add", [.single "hot"])])) ∧
      ∃ permutation : Equiv.Perm Id, (alone.level.rename permutation).Begins whole.level ∧
        alone.found.entries <+: whole.found.entries := by
  have goesOn := build_appends (.start : pantry.Reached _) ((ImportChain.start 4).entering "table")
    breakfast.1 breakfast.2
  exact ⟨by decide +kernel, goesOn.2 (ImportChain.settled_entering _ _) (by decide) _
    reached_breakfast⟩

end Bundled

end RecipeGraph
