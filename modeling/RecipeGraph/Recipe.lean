/-
# Recipes

A recipe is a list of statements. A statement calls something, assigns what a call, a namespace or
an import produces, gives a variable a second name, declares or binds styles, opens a namespace,
imports another recipe, or mentions a variable to no effect.

Everything that was written down is kept together with its span, in the order in which it was
written. Whether two recipes say the same is a question about their parts and not about their
spans, and it is answered by `Recipe.agrees`.
-/

import RecipeGraph.QualifiedPath
import RecipeGraph.Span

namespace RecipeGraph

/-- One item of a style block besides its tags. -/
inductive StyleEntry where
  /-- A property, `key: value`. -/
  | property (key value : String)
  /-- A quoted line of description. -/
  | description (line : String)
deriving DecidableEq, Repr, Inhabited

/-- A style in curly brackets: tags that refer to named styles, and entries of its own. -/
structure StyleBlock where
  tags : List (Spanned QualifiedPath)
  entries : List StyleEntry
deriving Repr, Inhabited

/-- A call `name(arguments){style}`, for whatever an argument is. -/
structure CallOf (α : Type) where
  name : Spanned String
  arguments : List α
  style : Option StyleBlock
deriving Repr

/-- What is passed to a call or a namespace: another call, or a variable. -/
inductive Argument where
  | call (call : Spanned (CallOf Argument))
  | reference (path : Spanned QualifiedPath)

/-- A call whose arguments are calls and variables. -/
abbrev Call := CallOf Argument

/-- A variable on the left of an assignment, with the style declared on it. -/
structure Target where
  name : Spanned String
  style : Option StyleBlock
deriving Repr, Inhabited

/-- An import `name @ "location"`; the name may be missing. -/
structure Import where
  location : Spanned String
  name : Option (Spanned String)
deriving Repr, Inhabited

/-- A namespace `name[statements](arguments){style}`, for whatever a statement is. -/
structure NamespaceOf (σ : Type) where
  name : Option (Spanned String)
  statements : List (Spanned σ)
  arguments : List Argument
  style : Option StyleBlock

/-- The right-hand side of an assignment: something that produces an element of the graph. -/
inductive ProducerOf (σ : Type) where
  | call (call : Spanned Call)
  | level (level : Spanned (NamespaceOf σ))
  | fetched (source : Spanned Import)

/-- One statement of a recipe. -/
inductive Statement where
  /-- `name(arguments){style}` -/
  | call (call : Call)
  /-- `target, target = producer` -/
  | assignment (targets : List Target) (producer : ProducerOf Statement)
  /-- `target = path` -/
  | alias (target : Target) (path : Spanned QualifiedPath)
  /-- `#name{style}` -/
  | namedStyle (name : Spanned String) (style : StyleBlock)
  /-- `%keyword{tags}` -/
  | styleBinding (keyword : Spanned String) (tags : List (Spanned QualifiedPath))
  /-- `name[statements](arguments){style}` -/
  | level (level : NamespaceOf Statement)
  /-- `name @ "location"` -/
  | fetched (source : Import)
  /-- `path` -/
  | reference (path : Spanned QualifiedPath)

abbrev Namespace := NamespaceOf Statement

abbrev Producer := ProducerOf Statement

/-- A recipe read from one text. -/
structure Recipe where
  statements : List (Spanned Statement)

instance : Inhabited Argument := ⟨.reference default⟩

instance : Inhabited Statement := ⟨.reference default⟩

instance : Inhabited Recipe := ⟨⟨[]⟩⟩

/-! ### Agreement up to spans -/

/-- Whether two lists have the same length and agree place by place. -/
def listsAgree {α : Type} (agrees : α → α → Bool) : List α → List α → Bool
  | [], [] => true
  | one :: ones, other :: others => agrees one other && listsAgree agrees ones others
  | _, _ => false

/-- Whether two optional parts are both missing, or are both there and agree. -/
def optionsAgree {α : Type} (agrees : α → α → Bool) : Option α → Option α → Bool
  | none, none => true
  | some one, some other => agrees one other
  | _, _ => false

/-- Whether two parts are equal wherever they stand. -/
def Spanned.agrees {α : Type} [DecidableEq α] (one other : Spanned α) : Bool :=
  decide (one.value = other.value)

def StyleBlock.agrees (one other : StyleBlock) : Bool :=
  listsAgree Spanned.agrees one.tags other.tags && decide (one.entries = other.entries)

def Target.agrees (one other : Target) : Bool :=
  one.name.agrees other.name && optionsAgree StyleBlock.agrees one.style other.style

def Import.agrees (one other : Import) : Bool :=
  one.location.agrees other.location && optionsAgree Spanned.agrees one.name other.name

mutual

/-- Whether two arguments say the same. -/
def Argument.agrees : Argument → Argument → Bool
  | .call ⟨⟨name, arguments, style⟩, _⟩, .call ⟨other, _⟩ =>
    name.agrees other.name && Argument.listAgrees arguments other.arguments &&
      optionsAgree StyleBlock.agrees style other.style
  | .reference path, .reference other => path.agrees other
  | _, _ => false
termination_by structural one => one

/-- Whether two lists of arguments say the same. -/
def Argument.listAgrees : List Argument → List Argument → Bool
  | [], [] => true
  | one :: ones, other :: others => one.agrees other && Argument.listAgrees ones others
  | _, _ => false
termination_by structural ones => ones

end

def Call.agrees (one other : Call) : Bool :=
  one.name.agrees other.name && Argument.listAgrees one.arguments other.arguments &&
    optionsAgree StyleBlock.agrees one.style other.style

mutual

/-- Whether two statements say the same. -/
def Statement.agrees : Statement → Statement → Bool
  | .call one, .call other => Call.agrees one other
  | .assignment targets (.call one), .assignment others (.call other) =>
    listsAgree Target.agrees targets others && Call.agrees one.value other.value
  | .assignment targets (.level ⟨⟨name, statements, arguments, style⟩, _⟩),
      .assignment others (.level ⟨other, _⟩) =>
    listsAgree Target.agrees targets others && optionsAgree Spanned.agrees name other.name &&
      Statement.listAgrees statements other.statements &&
      Argument.listAgrees arguments other.arguments &&
      optionsAgree StyleBlock.agrees style other.style
  | .assignment targets (.fetched source), .assignment others (.fetched other) =>
    listsAgree Target.agrees targets others && source.value.agrees other.value
  | .alias target path, .alias other otherPath => target.agrees other && path.agrees otherPath
  | .namedStyle name style, .namedStyle other otherStyle =>
    name.agrees other && style.agrees otherStyle
  | .styleBinding keyword tags, .styleBinding other otherTags =>
    keyword.agrees other && listsAgree Spanned.agrees tags otherTags
  | .level ⟨name, statements, arguments, style⟩, .level other =>
    optionsAgree Spanned.agrees name other.name &&
      Statement.listAgrees statements other.statements &&
      Argument.listAgrees arguments other.arguments &&
      optionsAgree StyleBlock.agrees style other.style
  | .fetched source, .fetched other => source.agrees other
  | .reference path, .reference other => path.agrees other
  | _, _ => false
termination_by structural one => one

/-- Whether two lists of statements say the same, one after the other. -/
def Statement.listAgrees : List (Spanned Statement) → List (Spanned Statement) → Bool
  | [], [] => true
  | ⟨one, _⟩ :: ones, ⟨other, _⟩ :: others =>
    one.agrees other && Statement.listAgrees ones others
  | _, _ => false
termination_by structural ones => ones

end

/-- Whether two recipes say the same, wherever in their texts they say it. -/
def Recipe.agrees (one other : Recipe) : Bool :=
  Statement.listAgrees one.statements other.statements

end RecipeGraph
