/-
# The grammar of recipes

Which texts a syntax tree may be written as. A tree has many of them: gaps may be filled in any way
that fits their place, a text may stand in quotes of either kind, the items of a style may come in
any order that keeps tags and entries in theirs, and the brackets of a namespace without arguments
may be missing. Spans do not matter. Nothing here depends on how texts are read.
-/

import RecipeGraph.Parser.Word
import RecipeGraph.Parser.StyleBlock
import RecipeGraph.Proofs.Parser.Filling

namespace RecipeGraph.Parser

/-! ### Words and sequences -/

/-- Whether a text may be used as a name. -/
def IsName (name : String) : Prop :=
  ∃ first others, name.toList = first :: others ∧ isNameStart first = true ∧
    ∀ c ∈ others, isNamePart c = true

instance (name : String) : Decidable (IsName name) :=
  match same : name.toList with
  | [] => isFalse fun ⟨_, _, other, _⟩ => nomatch same.symm.trans other
  | first :: others =>
    decidable_of_iff (isNameStart first = true ∧ others.all isNamePart = true) <| by
      rw [List.all_eq_true]
      constructor
      · exact fun ⟨start, parts⟩ => ⟨first, others, same, start, parts⟩
      · rintro ⟨_, _, other, start, parts⟩
        obtain ⟨rfl, rfl⟩ := List.cons.inj (same.symm.trans other)
        exact ⟨start, parts⟩

/-- Whether a text may be used as the key of a property. -/
def IsKey (key : String) : Prop :=
  key.toList ≠ [] ∧ ∀ c ∈ key.toList, isKeyPart c = true

instance (key : String) : Decidable (IsKey key) :=
  decidable_of_iff (key.toList ≠ [] ∧ key.toList.all isKeyPart = true) <|
    and_congr_right fun _ => List.all_eq_true

/-- A text between two equal quotes that it does not hold itself, on one line. -/
inductive QuotedText (content : String) : List Char → Prop where
  | intro {mark : Char} (quote : mark = '"' ∨ mark = '\'') (unquoted : mark ∉ content.toList)
      (line : '\n' ∉ content.toList) : QuotedText content (mark :: (content.toList ++ [mark]))

section Sequences

variable {α : Type}

/-- One item or more, with something between neighbours. -/
inductive Run (writes : α → List Char → Prop) (between : List Char → Prop) :
    List α → List Char → Prop where
  | one {item : α} {text : List Char} (here : writes item text) : Run writes between [item] text
  | more {item : α} {items : List α} {text gap rest : List Char} (here : writes item text)
      (parted : between gap) (later : Run writes between items rest) :
      Run writes between (item :: items) (text ++ (gap ++ rest))

/-- Any number of items, with something between neighbours and around them all. -/
inductive Body (writes : α → List Char → Prop) (between around : List Char → Prop) :
    List α → List Char → Prop where
  | empty {gap : List Char} (filling : around gap) : Body writes between around [] gap
  | filled {items : List α} {gap text gap' : List Char} (before : around gap)
      (run : Run writes between items text) (behind : around gap') :
      Body writes between around items (gap ++ (text ++ gap'))

end Sequences

/-- Names joined by dots. -/
def PathText (path : QualifiedPath) : List Char → Prop :=
  Run (fun name text => IsName name ∧ text = name.toList) (· = ['.']) path.segments

/-- A name in front, with the gap behind it, or nothing. -/
inductive LeadingName : Option (Spanned String) → List Char → Prop where
  | missing : LeadingName none []
  | present {name : Spanned String} {gap : List Char} (isName : IsName name.value)
      (filling : Filling isInlineBlank gap) : LeadingName (some name) (name.value.toList ++ gap)

/-! ### Styles -/

/-- What stands between two items of a style. -/
def Parting (gap : List Char) : Prop :=
  gap ≠ [] ∧ Filling isSeparator gap

/-- One tag. -/
inductive TagText (tag : Spanned QualifiedPath) : List Char → Prop where
  | intro {text : List Char} (path : PathText tag.value text) : TagText tag ('#' :: text)

/-- One item of a style. -/
inductive ItemText : StyleItem → List Char → Prop where
  | tag {path : Spanned QualifiedPath} {text : List Char} (tag : TagText path text) :
      ItemText (.tag path) text
  | description {line : String} {text : List Char} (quoted : QuotedText line text) :
      ItemText (.entry (.description line)) text
  | property {key value : String} {gap gap' text : List Char} (isKey : IsKey key)
      (before : Filling isInlineBlank gap) (behind : Filling isInlineBlank gap')
      (quoted : QuotedText value text) :
      ItemText (.entry (.property key value)) (key.toList ++ (gap ++ ':' :: (gap' ++ text)))

/-- A style in curly brackets. -/
inductive StyleText (style : StyleBlock) : List Char → Prop where
  | intro {items : List StyleItem} {body : List Char} (tags : tagsOf items = style.tags)
      (entries : entriesOf items = style.entries)
      (inside : Body ItemText Parting (Filling isSeparator) items body) :
      StyleText style ('\x7b' :: (body ++ ['\x7d']))

/-- A style behind something on the same line, or nothing. -/
inductive StyleTail : Option StyleBlock → List Char → Prop where
  | missing : StyleTail none []
  | present {style : StyleBlock} {gap text : List Char} (filling : Filling isInlineBlank gap)
      (written : StyleText style text) : StyleTail (some style) (gap ++ text)

/-! ### Calls -/

/-- A comma between two arguments. -/
inductive Comma (blank : Char → Bool) : List Char → Prop where
  | intro {gap gap' : List Char} (before : Filling blank gap) (behind : Filling blank gap') :
      Comma blank (gap ++ ',' :: gap')

/-- A call, for whatever an argument is. -/
inductive CallText {α : Type} (writes : α → List Char → Prop) : CallOf α → List Char → Prop where
  | intro {name : Spanned String} {arguments : List α} {style : Option StyleBlock}
      {gap body tail : List Char} (isName : IsName name.value) (filling : Filling isInlineBlank gap)
      (inside : Body writes (Comma isMultilineBlank) (Filling isMultilineBlank) arguments body)
      (styled : StyleTail style tail) :
      CallText writes ⟨name, arguments, style⟩
        (name.value.toList ++ (gap ++ '(' :: (body ++ ')' :: tail)))

/-- An argument: a call or a variable. -/
inductive ArgumentText : Argument → List Char → Prop where
  | call {made : CallOf Argument} {span : Span} {text : List Char}
      (written : CallText ArgumentText made text) : ArgumentText (.call ⟨made, span⟩) text
  | reference {path : Spanned QualifiedPath} {text : List Char} (written : PathText path.value text) :
      ArgumentText (.reference path) text

/-! ### Statements -/

/-- An import with its location. -/
inductive ImportText (source : Import) : List Char → Prop where
  | intro {lead gap text : List Char} (named : LeadingName source.name lead)
      (filling : Filling isInlineBlank gap) (location : QuotedText source.location.value text) :
      ImportText source (lead ++ '@' :: (gap ++ text))

/-- The arguments of a namespace. If there are none, the brackets may be missing. -/
inductive ArgumentsTail : List Argument → List Char → Prop where
  | missing : ArgumentsTail [] []
  | present {arguments : List Argument} {gap body : List Char} (filling : Filling isInlineBlank gap)
      (inside : Body ArgumentText (Comma isMultilineBlank) (Filling isMultilineBlank) arguments body) :
      ArgumentsTail arguments (gap ++ '(' :: (body ++ [')']))

/-- A namespace, for whatever a statement is. -/
inductive NamespaceText {σ : Type} (writes : σ → List Char → Prop) :
    NamespaceOf σ → List Char → Prop where
  | intro {name : Option (Spanned String)} {statements : List (Spanned σ)}
      {arguments : List Argument} {style : Option StyleBlock} {lead body brackets tail : List Char}
      (named : LeadingName name lead)
      (inside : Body (fun statement text => writes statement.value text) Breaking
        (Filling isSeparator) statements body)
      (passed : ArgumentsTail arguments brackets) (styled : StyleTail style tail) :
      NamespaceText writes ⟨name, statements, arguments, style⟩
        (lead ++ '[' :: (body ++ ']' :: (brackets ++ tail)))

/-- A variable on the left of an assignment. -/
inductive TargetText (target : Target) : List Char → Prop where
  | intro {tail : List Char} (isName : IsName target.name.value)
      (styled : StyleTail target.style tail) :
      TargetText target (target.name.value.toList ++ tail)

/-- What stands on the right of an assignment, for whatever a statement is. -/
inductive ProducerText {σ : Type} (writes : σ → List Char → Prop) :
    ProducerOf σ → List Char → Prop where
  | call {made : Spanned Call} {text : List Char} (written : CallText ArgumentText made.value text) :
      ProducerText writes (.call made) text
  | level {level : NamespaceOf σ} {span : Span} {text : List Char}
      (written : NamespaceText writes level text) : ProducerText writes (.level ⟨level, span⟩) text
  | fetched {source : Spanned Import} {text : List Char} (written : ImportText source.value text) :
      ProducerText writes (.fetched source) text

/-- One statement. -/
inductive StatementText : Statement → List Char → Prop where
  | call {made : Call} {text : List Char} (written : CallText ArgumentText made text) :
      StatementText (.call made) text
  | assignment {targets : List Target} {producer : ProducerOf Statement}
      {left gap gap' right : List Char}
      (targeted : Run TargetText (Comma isInlineBlank) targets left)
      (before : Filling isInlineBlank gap) (behind : Filling isInlineBlank gap')
      (produced : ProducerText StatementText producer right) :
      StatementText (.assignment targets producer) (left ++ (gap ++ '=' :: (gap' ++ right)))
  | alias {target : Target} {path : Spanned QualifiedPath} {left gap gap' right : List Char}
      (targeted : TargetText target left) (before : Filling isInlineBlank gap)
      (behind : Filling isInlineBlank gap') (written : PathText path.value right) :
      StatementText (.alias target path) (left ++ (gap ++ '=' :: (gap' ++ right)))
  | namedStyle {name : Spanned String} {style : StyleBlock} {gap text : List Char}
      (isName : IsName name.value) (filling : Filling isInlineBlank gap)
      (written : StyleText style text) :
      StatementText (.namedStyle name style) ('#' :: (name.value.toList ++ (gap ++ text)))
  | styleBinding {keyword : Spanned String} {tags : List (Spanned QualifiedPath)}
      {gap body : List Char} (isName : IsName keyword.value) (filling : Filling isInlineBlank gap)
      (inside : Body TagText Parting (Filling isSeparator) tags body) :
      StatementText (.styleBinding keyword tags)
        ('%' :: (keyword.value.toList ++ (gap ++ '\x7b' :: (body ++ ['\x7d']))))
  | level {level : NamespaceOf Statement} {text : List Char}
      (written : NamespaceText StatementText level text) : StatementText (.level level) text
  | fetched {source : Import} {text : List Char} (written : ImportText source text) :
      StatementText (.fetched source) text
  | reference {path : Spanned QualifiedPath} {text : List Char} (written : PathText path.value text) :
      StatementText (.reference path) text

/-- A whole recipe. Behind its last statement comes a line break that is not part of it, so a line
comment there needs none of its own. -/
inductive RecipeText : List (Spanned Statement) → List Char → Prop where
  | empty {gap : List Char} (filling : Filling isSeparator (gap ++ ['\n'])) : RecipeText [] gap
  | filled {statements : List (Spanned Statement)} {gap text gap' : List Char}
      (before : Filling isSeparator gap)
      (run : Run (fun statement text => StatementText statement.value text) Breaking statements text)
      (behind : Filling isSeparator (gap' ++ ['\n'])) : RecipeText statements (gap ++ (text ++ gap'))

end RecipeGraph.Parser
