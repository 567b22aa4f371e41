/-
# Names in recipes

Every name that a recipe holds was read as a name, and so was every segment of every path. Whatever
is made of a text has such names only, at any depth. Locations, and the keys and values of
properties, are texts of their own kinds and not spoken of here.

Scanners are judged by what they read, wherever they stand; what they pass over does not matter.
-/

import Mathlib.Data.List.TakeWhile
import RecipeGraph.Proofs.Parser.Accounted
import RecipeGraph.Proofs.Parser.Grammar
import RecipeGraph.Proofs.Parser.Positions

namespace RecipeGraph

open RecipeGraph.Parser

/-! ### Recipes with proper names -/

/-- A path of one name or more. -/
def QualifiedPath.Named (path : QualifiedPath) : Prop :=
  path.segments ≠ [] ∧ ∀ segment ∈ path.segments, IsName segment

def StyleBlock.Named (block : StyleBlock) : Prop :=
  ∀ tag ∈ block.tags, tag.value.Named

def Target.Named (target : Target) : Prop :=
  IsName target.name.value ∧ ∀ block ∈ target.style, block.Named

def Import.Named (source : Import) : Prop :=
  ∀ name ∈ source.name, IsName name.value

mutual

/-- Every name in an argument is one. -/
def Argument.Named : Argument → Prop
  | .call ⟨made, _⟩ => Call.Named made
  | .reference path => path.value.Named
termination_by structural argument => argument

/-- Every name in a call is one. -/
def Call.Named : CallOf Argument → Prop
  | ⟨name, arguments, style⟩ =>
    IsName name.value ∧ Argument.listNamed arguments ∧ ∀ block ∈ style, block.Named
termination_by structural made => made

/-- Every name in the arguments is one. -/
def Argument.listNamed : List Argument → Prop
  | [] => True
  | argument :: rest => argument.Named ∧ Argument.listNamed rest
termination_by structural arguments => arguments

end

mutual

/-- Every name in a statement is one. -/
def Statement.Named : Statement → Prop
  | .call made => Call.Named made
  | .assignment targets producer => (∀ target ∈ targets, target.Named) ∧ Producer.Named producer
  | .alias target path => target.Named ∧ path.value.Named
  | .namedStyle name style => IsName name.value ∧ style.Named
  | .styleBinding keyword tags => IsName keyword.value ∧ ∀ tag ∈ tags, tag.value.Named
  | .level level => Namespace.Named level
  | .fetched source => source.Named
  | .reference path => path.value.Named
termination_by structural statement => statement

/-- Every name on the right of an assignment is one. -/
def Producer.Named : ProducerOf Statement → Prop
  | .call ⟨made, _⟩ => Call.Named made
  | .level ⟨level, _⟩ => Namespace.Named level
  | .fetched ⟨source, _⟩ => source.Named
termination_by structural producer => producer

/-- Every name in a namespace is one. -/
def Namespace.Named : NamespaceOf Statement → Prop
  | ⟨name, statements, arguments, style⟩ =>
    (∀ word ∈ name, IsName word.value) ∧ Statement.listNamed statements ∧
      Argument.listNamed arguments ∧ ∀ block ∈ style, block.Named
termination_by structural level => level

/-- Every name in the statements is one. -/
def Statement.listNamed : List (Spanned Statement) → Prop
  | [] => True
  | ⟨statement, _⟩ :: rest => statement.Named ∧ Statement.listNamed rest
termination_by structural statements => statements

end

/-- Every name in a recipe is one. -/
def Recipe.Named (recipe : Recipe) : Prop :=
  Statement.listNamed recipe.statements

theorem Argument.listNamed_iff {arguments : List Argument} :
    Argument.listNamed arguments ↔ ∀ argument ∈ arguments, argument.Named := by
  induction arguments with
  | nil => simp [Argument.listNamed]
  | cons argument rest step => rw [Argument.listNamed, step, List.forall_mem_cons]

theorem Statement.listNamed_iff {statements : List (Spanned Statement)} :
    Statement.listNamed statements ↔ ∀ item ∈ statements, item.value.Named := by
  induction statements with
  | nil => simp [Statement.listNamed]
  | cons item rest step => rw [Statement.listNamed, step, List.forall_mem_cons]

namespace Parser

variable {α β : Type}

/-! ### What scanners and readers read -/

/-- Whatever the scanner reads has a property. -/
def Scanner.Yields (good : α → Prop) (item : Scanner α) : Prop :=
  ∀ ⦃cursor stop : Cursor⦄ ⦃value : α⦄, item cursor = .done value stop → good value

/-- Whatever the reader reads has a property. -/
def Reader.Yields (good : α → Prop) (item : Reader α) : Prop :=
  ∀ ⦃cursor stop : Cursor⦄ ⦃value : α⦄ ⦃found : List Diagnostic⦄,
    item cursor = ⟨found, .done value stop⟩ → good value

namespace Scanner

variable {first second item : Scanner α} {next : α → Scanner β} {turn : Scanner (Turn α)}
  {good holds : α → Prop} {better : β → Prop}

theorem Yields.pure {value : α} (held : good value) : Yields good (Pure.pure value) := by
  intro cursor stop other read
  cases read
  exact held

theorem Yields.bind (one : first.Yields holds)
    (two : ∀ value, holds value → (next value).Yields better) : Yields better (first >>= next) := by
  intro cursor stop value read
  obtain ⟨before, middle, here, later⟩ := bind_done read
  exact two before (one here) later

/-- A part of which nothing needs to be known may come first. -/
theorem Yields.after (two : ∀ value, (next value).Yields better) :
    Yields better (first >>= next) :=
  have nothing : first.Yields fun _ => True := fun _ _ _ _ => trivial
  nothing.bind fun value _ => two value

theorem Yields.map {f : α → β} (yields : item.Yields holds)
    (more : ∀ value, holds value → better (f value)) : Yields better (f <$> item) :=
  yields.bind fun value held => .pure (more value held)

theorem Yields.orTry (one : first.Yields good) (two : second.Yields good) :
    (orTry first second).Yields good := by
  intro cursor stop value read
  rw [Scanner.orTry] at read
  split at read
  · exact two read
  · exact one read

theorem Yields.optional (yields : item.Yields good) :
    (optional item).Yields fun found => ∀ value ∈ found, good value := by
  intro cursor stop found read
  rcases optional_done read with ⟨one, rfl, here⟩ | ⟨rfl, _⟩
  · intro value held
    exact Option.some.inj held ▸ yields here
  · exact nofun

theorem Yields.located (yields : item.Yields good) :
    (located item).Yields fun found => good found.value :=
  fun _ _ _ read => yields (located_done read).1

theorem Yields.turns (yields : turn.Yields fun taken => ∀ item ∈ taken.items, good item)
    (bound : Nat) : (turns turn bound).Yields fun items => ∀ item ∈ items, good item := by
  induction bound with
  | zero => exact fun _ _ _ read => nomatch read
  | succ bound step =>
      intro cursor stop items read
      obtain ⟨taken, middle, here, ⟨rfl, _⟩ | ⟨rest, later, rfl⟩⟩ := turns_done read
      · exact yields here
      · exact List.forall_mem_append.2 ⟨yields here, step later⟩

theorem Yields.repeated (yields : turn.Yields fun taken => ∀ item ∈ taken.items, good item) :
    (repeated turn).Yields fun items => ∀ item ∈ items, good item :=
  fun _ _ _ read => yields.turns _ read

theorem Yields.itemTurn (yields : item.Yields good) :
    Yields (fun taken => ∀ item ∈ taken.items, good item) (do
      match ← Scanner.optional item with
      | some value => return Turn.more value
      | none => return .stop) := by
  refine yields.optional.bind fun found held => ?_
  cases found with
  | none => exact .pure nofun
  | some value => exact .pure (by simpa [Turn.items] using held value rfl)

theorem Yields.separated (yields : item.Yields good) (between : Scanner Unit) :
    (separated item between).Yields fun items => items ≠ [] ∧ ∀ item ∈ items, good item := by
  have others : (many do between; item).Yields fun items => ∀ item ∈ items, good item :=
    (Yields.after fun _ => yields).itemTurn.repeated
  exact yields.bind fun first held => others.bind fun rest later =>
    .pure ⟨List.cons_ne_nil _ _, List.forall_mem_cons.2 ⟨held, later⟩⟩

theorem Yields.separatedItems (yields : item.Yields good) :
    (separatedItems item).Yields fun items => ∀ item ∈ items, good item :=
  Yields.repeated (.after fun _ => yields.itemTurn)

theorem Yields.lift (yields : item.Yields good) : (Reader.ofScanner item).Yields good := by
  intro cursor stop value found read
  injection read with _ outcome
  exact yields outcome

end Scanner

namespace Reader

variable {first second item : Reader α} {next : α → Reader β} {good holds : α → Prop}
  {better : β → Prop}

theorem Yields.pure {value : α} (held : good value) : Yields good (Pure.pure value) := by
  intro cursor stop other found read
  cases read
  exact held

theorem Yields.bind (one : first.Yields holds)
    (two : ∀ value, holds value → (next value).Yields better) : Yields better (first >>= next) := by
  intro cursor stop value found read
  obtain ⟨before, middle, _, _, here, later, _⟩ := bind_done read
  exact two before (one here) later

theorem Yields.after (two : ∀ value, (next value).Yields better) :
    Yields better (first >>= next) :=
  have nothing : first.Yields fun _ => True := fun _ _ _ _ _ => trivial
  nothing.bind fun value _ => two value

theorem Yields.map {f : α → β} (yields : item.Yields holds)
    (more : ∀ value, holds value → better (f value)) : Yields better (f <$> item) :=
  yields.bind fun value held => .pure (more value held)

theorem Yields.orTry (one : first.Yields good) (two : second.Yields good) :
    (orTry first second).Yields good := by
  intro cursor stop value found read
  rcases orTry_done read with here | ⟨_, _, here, _⟩
  · exact one here
  · exact two here

theorem Yields.optional (yields : item.Yields good) :
    (optional item).Yields fun found => ∀ value ∈ found, good value := by
  intro cursor stop found _ read
  rcases optional_done read with ⟨one, rfl, here⟩ | ⟨rfl, _⟩
  · intro value held
    exact Option.some.inj held ▸ yields here
  · exact nofun

theorem Yields.located (yields : item.Yields good) :
    (located item).Yields fun found => good found.value :=
  fun _ _ _ _ read => yields (located_done read).1

end Reader

/-! ### Words and styles -/

/-- A name that is read may be used as a name. -/
theorem identifier_named : identifier.Yields fun name => IsName name.value := by
  intro cursor stop name read
  obtain ⟨c, middle, first, last⟩ := Scanner.bind_done (Scanner.located_done read).1
  obtain ⟨others, behind, run, last⟩ := Scanner.bind_done last
  cases run
  injection last with same
  rw [← same]
  exact ⟨c, _, String.toList_ofList, (Scanner.one_done first).1,
    fun c held => List.mem_takeWhile_imp held⟩

theorem qualifiedName_named : qualifiedName.Yields fun path => path.value.Named := by
  refine .located ((identifier_named.separated _).bind fun names held => .pure ⟨?_, ?_⟩)
  · exact fun nothing => held.1 (List.map_eq_nil_iff.1 nothing)
  · intro segment listed
    obtain ⟨name, inside, rfl⟩ := List.mem_map.1 listed
    exact held.2 name inside

theorem leadingName_named (skip : Cursor → Cursor) :
    (leadingName skip).Yields fun name => ∀ word ∈ name, IsName word.value :=
  .optional (identifier_named.bind fun _ named => .after fun _ => .pure named)

theorem tagReference_named : tagReference.Yields fun path => path.value.Named :=
  .after fun _ => qualifiedName_named

theorem styleItem_named : styleItem.Yields fun item => ∀ path, item = .tag path → path.value.Named := by
  refine (tagReference_named.map fun path named other same => ?_).orTry <|
    .orTry (.after fun _ => .pure nofun) (.after fun _ => .pure nofun)
  exact StyleItem.tag.inj same ▸ named

theorem styleBlock_named : styleBlock.Yields StyleBlock.Named :=
  .after fun _ => styleItem_named.separatedItems.bind fun _ named =>
    .after fun _ => .pure fun _ held => named _ (mem_tagsOf held) _ rfl

theorem trailingStyle_named : trailingStyle.Yields fun style => ∀ block ∈ style, block.Named :=
  .optional (.after fun _ => styleBlock_named)

/-! ### Calls -/

section Calls

variable {item : Scanner Argument}

theorem argumentTurn_named (named : item.Yields Argument.Named) :
    (argumentTurn item).Yields fun taken => ∀ item ∈ taken.items, item.Named := by
  refine .after fun _ => named.optional.bind fun found held => ?_
  cases found with
  | none => exact .pure nofun
  | some value =>
      refine .after fun _ => .after fun comma => ?_
      cases comma with
      | none => exact .pure (by simpa [Scanner.Turn.items] using held value rfl)
      | some _ => exact .pure (by simpa [Scanner.Turn.items] using held value rfl)

theorem argumentList_named (named : item.Yields Argument.Named) :
    (argumentList item).Yields Argument.listNamed :=
  .after fun _ => (argumentTurn_named named).repeated.bind fun _ held =>
    .after fun _ => .after fun _ => .pure (Argument.listNamed_iff.2 held)

theorem callWith_named (named : item.Yields Argument.Named) :
    (callWith item).Yields fun made => Call.Named made.value :=
  .located (identifier_named.bind fun _ isName => .after fun _ =>
    (argumentList_named named).bind fun _ passed => trailingStyle_named.bind fun _ styled =>
      .pure ⟨isName, passed, styled⟩)

theorem argumentWithin_named (depth : Nat) :
    Scanner.Yields Argument.Named fun cursor => argumentWithin depth cursor := by
  induction depth with
  | zero => exact fun _ _ _ read => nomatch read
  | succ depth step =>
      exact Scanner.Yields.orTry ((callWith_named step).map fun _ made => made)
        (qualifiedName_named.map fun _ path => path)

theorem argument_named : argument.Yields Argument.Named :=
  fun _ _ _ read => argumentWithin_named _ read

theorem call_named : call.Yields fun made => Call.Named made.value :=
  callWith_named argument_named

end Calls

/-! ### Statements -/

theorem trailingArguments_named : trailingArguments.Yields Argument.listNamed := by
  refine Scanner.Yields.bind (Scanner.Yields.optional (.after fun _ =>
    argumentList_named argument_named)) fun found held => ?_
  cases found with
  | none => exact .pure trivial
  | some arguments => exact .pure (held arguments rfl)

theorem importClause_named : importClause.Yields fun source => source.value.Named :=
  .located ((leadingName_named _).bind fun _ named => .after fun _ => .after fun _ =>
    .after fun _ => .pure named)

theorem targets_named : targets.Yields fun lefts => ∀ left ∈ lefts, left.Named := by
  have target : target.Yields Target.Named :=
    identifier_named.bind fun _ isName => trailingStyle_named.bind fun _ styled =>
      .pure ⟨isName, styled⟩
  exact fun _ _ _ read => (target.separated _ read).2

theorem aliasOf_named {lefts : List Target} (named : ∀ left ∈ lefts, left.Named) :
    (aliasOf lefts).Yields Statement.Named := by
  match lefts with
  | [] => exact fun _ _ _ read => nomatch read
  | [left] => exact qualifiedName_named.map fun _ path => ⟨named left List.mem_cons_self, path⟩
  | _ :: _ :: _ => exact fun _ _ _ read => nomatch read

theorem namedStyle_named : namedStyle.Yields Statement.Named :=
  .after fun _ => identifier_named.bind fun _ isName => .after fun _ =>
    styleBlock_named.bind fun _ styled => .pure ⟨isName, styled⟩

theorem styleBinding_named : styleBinding.Yields Statement.Named :=
  .after fun _ => identifier_named.bind fun _ isName => .after fun _ => .after fun _ =>
    tagReference_named.separatedItems.bind fun _ tagged => .after fun _ => .pure ⟨isName, tagged⟩

section Statements

variable {statement : Reader Statement} (named : statement.Yields Statement.Named)

include named

/-- What a list of statements holds was read as a statement, turn by turn. -/
theorem Turns.listNamed {nested : Bool} {bound : Nat} {cursor stop : Cursor}
    {reply : Reply (List (Spanned Statement))} {items : List (Spanned Statement)}
    (turns : Turns statement nested bound cursor reply) (read : reply.outcome = .done items stop) :
    Statement.listNamed items := by
  induction turns generalizing items with
  | spent => cases read
  | stop =>
      cases read
      trivial
  | done more attempt _ step =>
      obtain ⟨others, outcome, rfl⟩ := Reply.behind_done read
      have whole : (wholeStatement statement).Yields fun item => item.value.Named :=
        named.located.bind fun _ held => .after fun _ => .pure held
      exact ⟨whole attempt, step outcome⟩
  | halted _ _ _ step => exact step read
  | refused _ _ _ _ step => exact step read

theorem namespaceWith_named :
    (namespaceWith statement).Yields fun level => Namespace.Named level.value := by
  have stated : (statementList statement true).Yields Statement.listNamed := by
    intro cursor stop items found read
    rw [statementList] at read
    exact (turns_statementTurns statement true _ cursor).listNamed named (congrArg Reply.outcome read)
  exact .located ((leadingName_named _).lift.bind fun _ isName => .after fun _ =>
    stated.bind fun _ inside => .after fun _ => trailingArguments_named.lift.bind fun _ passed =>
      trailingStyle_named.lift.bind fun _ styled => .pure ⟨isName, inside, passed, styled⟩)

theorem producerWith_named : (producerWith statement).Yields Producer.Named := by
  have fetched : Scanner.Yields Producer.Named (ProducerOf.fetched <$> importClause) :=
    importClause_named.map fun _ held => held
  have level : Reader.Yields Producer.Named (ProducerOf.level <$> namespaceWith statement) :=
    (namespaceWith_named named).map fun _ held => held
  have made : Scanner.Yields Producer.Named (ProducerOf.call <$> call) :=
    call_named.map fun _ held => held
  exact fetched.lift.orTry (level.orTry made.lift)

theorem assignmentWith_named : (assignmentWith statement).Yields Statement.Named := by
  refine targets_named.lift.bind fun left targeted => .after fun _ =>
    (producerWith_named named).optional.bind fun found held => ?_
  cases found with
  | some producer => exact .pure ⟨targeted, held producer rfl⟩
  | none => exact (aliasOf_named targeted).lift

theorem statementWith_named : (statementWith statement).Yields Statement.Named := by
  have fetched : Scanner.Yields Statement.Named
      ((fun source => .fetched source.value) <$> importClause) :=
    importClause_named.map fun _ held => held
  have level : Reader.Yields Statement.Named
      ((fun level => .level level.value) <$> namespaceWith statement) :=
    (namespaceWith_named named).map fun _ held => held
  have made : Scanner.Yields Statement.Named ((fun made => .call made.value) <$> call) :=
    call_named.map fun _ held => held
  have mentioned : Scanner.Yields Statement.Named (Statement.reference <$> qualifiedName) :=
    qualifiedName_named.map fun _ held => held
  exact namedStyle_named.lift.orTry <| styleBinding_named.lift.orTry <| fetched.lift.orTry <|
    (assignmentWith_named named).orTry <| level.orTry <| made.lift.orTry mentioned.lift

end Statements

theorem statementWithin_named (depth : Nat) :
    Reader.Yields Statement.Named fun cursor => statementWithin depth cursor := by
  induction depth with
  | zero => exact fun _ _ _ _ read => nomatch read
  | succ depth step => exact statementWith_named step

end Parser

/-- Every name of every recipe that is read is one. -/
theorem Recipe.parseLenient_named (source : String) : (parseLenient source).1.Named := by
  obtain ⟨items, stop, outcome, _⟩ := Parser.recipeStatements_finishes (.ofText source)
  rw [parseLenient, outcome]
  exact (turns_statementTurns _ false _ _).listNamed (statementWithin_named _) outcome

end RecipeGraph
