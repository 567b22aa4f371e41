/-
# Canonical texts

Of all the texts a tree may be written as, one is given by the tree alone: each statement on a line
of its own, each text in quotes, one blank where two items have to be told apart, and no comments.
Whatever tree is written in some way is also written in this one.

At its end, closing brackets and line breaks are all that may be left out, and a recipe is read
without them as it is read with them.
-/

import RecipeGraph.Proofs.Parser.Unclosed

namespace RecipeGraph

/-! ### Writing trees -/

/-- A text in double quotes, or in single ones if it holds a double one itself. -/
def inQuotes (content : String) : List Char :=
  let mark := if '"' ∈ content.toList then '\'' else '"'
  mark :: (content.toList ++ [mark])

/-- A tag with its mark. -/
def canonicalTag (tag : Spanned QualifiedPath) : List Char :=
  '#' :: tag.value.joined.toList

/-- Tags or entries with a blank between neighbours, in curly brackets. -/
def inBraces (texts : List (List Char)) : List Char :=
  '\x7b' :: ([' '].intercalate texts ++ ['\x7d'])

/-- Arguments with a comma and a blank between neighbours, in round brackets. -/
def inParens (texts : List (List Char)) : List Char :=
  '(' :: ([',', ' '].intercalate texts ++ [')'])

/-- Statements on lines of their own. -/
def onLines (texts : List (List Char)) : List Char :=
  ['\n'].intercalate texts ++ ['\n']

def Parser.StyleItem.canonical : Parser.StyleItem → List Char
  | .tag path => canonicalTag path
  | .entry (.property key value) => key.toList ++ ':' :: ' ' :: inQuotes value
  | .entry (.description line) => inQuotes line

/-- The items of a style, tags first. -/
def StyleBlock.items (style : StyleBlock) : List Parser.StyleItem :=
  style.tags.map .tag ++ style.entries.map .entry

def StyleBlock.canonical (style : StyleBlock) : List Char :=
  inBraces (style.items.map Parser.StyleItem.canonical)

/-- A name in front of something, with a gap behind it, or nothing. -/
def inFront (gap : List Char) : Option (Spanned String) → List Char
  | none => []
  | some name => name.value.toList ++ gap

def Import.canonical (source : Import) : List Char :=
  inFront [' '] source.name ++ '@' :: ' ' :: inQuotes source.location.value

def Target.canonical (target : Target) : List Char :=
  target.name.value.toList ++ target.style.elim [] StyleBlock.canonical

mutual

def Argument.canonical : Argument → List Char
  | .call ⟨made, _⟩ => Call.canonical made
  | .reference path => path.value.joined.toList
termination_by structural argument => argument

def Call.canonical : CallOf Argument → List Char
  | ⟨name, arguments, style⟩ =>
    name.value.toList ++ inParens (Argument.canonicals arguments) ++
      style.elim [] StyleBlock.canonical
termination_by structural made => made

def Argument.canonicals : List Argument → List (List Char)
  | [] => []
  | argument :: rest => argument.canonical :: Argument.canonicals rest
termination_by structural arguments => arguments

end

mutual

def Statement.canonical : Statement → List Char
  | .call made => Call.canonical made
  | .assignment targets producer =>
    [',', ' '].intercalate (targets.map Target.canonical) ++
      ' ' :: '=' :: ' ' :: Producer.canonical producer
  | .alias target path => target.canonical ++ ' ' :: '=' :: ' ' :: path.value.joined.toList
  | .namedStyle name style => '#' :: (name.value.toList ++ style.canonical)
  | .styleBinding keyword tags => '%' :: (keyword.value.toList ++ inBraces (tags.map canonicalTag))
  | .level level => Namespace.canonical level
  | .fetched source => source.canonical
  | .reference path => path.value.joined.toList
termination_by structural statement => statement

def Producer.canonical : ProducerOf Statement → List Char
  | .call made => Call.canonical made.value
  | .level ⟨level, _⟩ => Namespace.canonical level
  | .fetched source => source.value.canonical
termination_by structural producer => producer

/-- The brackets around arguments are left out if there are none. -/
def Namespace.canonical : NamespaceOf Statement → List Char
  | ⟨name, statements, arguments, style⟩ =>
    inFront [] name ++
      '[' :: '\n' :: (onLines (Statement.canonicals statements) ++
        ']' :: ((if arguments.isEmpty then [] else inParens (Argument.canonicals arguments)) ++
          style.elim [] StyleBlock.canonical))
termination_by structural level => level

def Statement.canonicals : List (Spanned Statement) → List (List Char)
  | [] => []
  | ⟨statement, _⟩ :: rest => statement.canonical :: Statement.canonicals rest
termination_by structural statements => statements

end

theorem Argument.canonicals_eq_map (arguments : List Argument) :
    Argument.canonicals arguments = arguments.map Argument.canonical := by
  induction arguments with
  | nil => rfl
  | cons argument rest step => rw [Argument.canonicals, step, List.map_cons]

theorem Statement.canonicals_eq_map (statements : List (Spanned Statement)) :
    Statement.canonicals statements = statements.map (Statement.canonical ·.value) := by
  induction statements with
  | nil => rfl
  | cons statement rest step => rw [Statement.canonicals, step, List.map_cons]

/-- The canonical text of a recipe. -/
def Recipe.canonical (recipe : Recipe) : String :=
  String.ofList (onLines (Statement.canonicals recipe.statements))

namespace Parser

/-! ### Runs of items -/

section Sequences

variable {α : Type} {writes : α → List Char → Prop} {between around : List Char → Prop}
  {items : List α} {text gap : List Char} {print : α → List Char}

theorem Run.forall_written (run : Run writes between items text) :
    items ≠ [] ∧ ∀ item ∈ items, ∃ here, writes item here := by
  induction run with
  | one here => exact ⟨List.cons_ne_nil _ _, List.forall_mem_singleton.2 ⟨_, here⟩⟩
  | more here parted later step =>
      exact ⟨List.cons_ne_nil _ _, List.forall_mem_cons.2 ⟨⟨_, here⟩, step.2⟩⟩

theorem Body.forall_written (body : Body writes between around items text) :
    ∀ item ∈ items, ∃ here, writes item here := by
  cases body with
  | empty filling => exact nofun
  | filled before run behind => exact run.forall_written.2

/-- Items that are printed one by one are a run if what stands between them may. -/
theorem Run.of_forall (nonempty : items ≠ []) (parted : between gap)
    (each : ∀ item ∈ items, writes item (print item)) :
    Run writes between items (gap.intercalate (items.map print)) := by
  induction items with
  | nil => exact absurd rfl nonempty
  | cons item rest step =>
      obtain ⟨here, later⟩ := List.forall_mem_cons.1 each
      cases rest with
      | nil =>
          rw [List.map_singleton, List.intercalate_singleton]
          exact .one here
      | cons next rest =>
          rw [List.map_cons, List.map_cons, List.intercalate_cons_cons, List.append_assoc]
          exact .more here parted (step (List.cons_ne_nil _ _) later)

theorem Body.of_forall {blank : Char → Bool} {before behind : List Char} (parted : between gap)
    (opened : Filling blank before) (closed : Filling blank behind)
    (each : ∀ item ∈ items, writes item (print item)) :
    Body writes between (Filling blank) items
      (before ++ (gap.intercalate (items.map print) ++ behind)) := by
  cases items with
  | nil =>
      rw [List.map_nil, List.intercalate_nil, List.nil_append]
      exact .empty (opened.append closed)
  | cons item rest =>
      exact .filled opened (.of_forall (List.cons_ne_nil _ _) parted each) closed

/-- Nothing needs to stand around the items. -/
theorem Body.tight {blank : Char → Bool} (parted : between gap)
    (each : ∀ item ∈ items, writes item (print item)) :
    Body writes between (Filling blank) items (gap.intercalate (items.map print)) := by
  have body : Body writes between (Filling blank) items
      ([] ++ (gap.intercalate (items.map print) ++ [])) := .of_forall parted .nil .nil each
  rwa [List.append_nil] at body

end Sequences

theorem Filling.blank {blank : Char → Bool} {c : Char} (held : blank c = true) :
    Filling blank [c] := by
  refine ⟨[.blank c], ?_, rfl⟩
  exact List.forall_mem_singleton.2 held

theorem comma_blank {blank : Char → Bool} (held : blank ' ' = true) : Comma blank [',', ' '] := by
  have comma : Comma blank ([] ++ ',' :: [' ']) := .intro .nil (.blank held)
  exact comma

/-! ### Words and styles -/

section Styles

variable {style : StyleBlock} {text : List Char}

theorem QuotedText.canonical {content : String} (written : QuotedText content text) :
    QuotedText content (inQuotes content) := by
  obtain @⟨mark, quote, unquoted, line⟩ := written
  rw [inQuotes]
  split
  · next double =>
      obtain rfl : mark = '\'' := quote.resolve_left fun same => unquoted (same ▸ double)
      exact .intro (.inr rfl) unquoted line
  · next single => exact .intro (.inl rfl) single line

theorem toList_joined (path : QualifiedPath) :
    path.joined.toList = ['.'].intercalate (path.segments.map String.toList) := by
  obtain ⟨segments⟩ := path
  rw [QualifiedPath.joined]
  induction segments with
  | nil => rfl
  | cons segment rest step =>
      cases rest with
      | nil => rw [List.map_singleton, List.intercalate_singleton, QualifiedPath.joinSegments]
      | cons next rest =>
          rw [QualifiedPath.joinSegments, String.toList_append, String.toList_append, step]
          exact List.intercalate_cons_cons.symm

theorem PathText.canonical {path : QualifiedPath} (written : PathText path text) :
    PathText path path.joined.toList := by
  obtain ⟨nonempty, each⟩ := Run.forall_written written
  rw [toList_joined]
  refine Run.of_forall nonempty rfl fun name held => ?_
  obtain ⟨_, isName, _⟩ := each name held
  exact ⟨isName, rfl⟩

theorem TagText.canonical {tag : Spanned QualifiedPath} (written : TagText tag text) :
    TagText tag (canonicalTag tag) := by
  obtain ⟨path⟩ := written
  exact .intro path.canonical

theorem ItemText.canonical {item : StyleItem} (written : ItemText item text) :
    ItemText item item.canonical := by
  cases written with
  | tag tag => exact .tag tag.canonical
  | description quoted => exact .description quoted.canonical
  | @property key value _ _ _ isKey before behind quoted =>
      have item : ItemText (.entry (.property key value))
          (key.toList ++ ([] ++ ':' :: ([' '] ++ inQuotes value))) :=
        .property isKey .nil (.blank (by decide)) quoted.canonical
      exact item

theorem parting_blank : Parting [' '] :=
  ⟨List.cons_ne_nil _ _, .blank (by decide)⟩

/-- The items of a style, tags first, are its tags and its entries. -/
theorem tagsOf_items (style : StyleBlock) : tagsOf style.items = style.tags := by
  obtain ⟨tags, entries⟩ := style
  rw [StyleBlock.items]
  induction tags with
  | nil =>
      induction entries with
      | nil => rfl
      | cons entry rest step => exact step
  | cons tag rest step => exact congrArg (tag :: ·) step

theorem entriesOf_items (style : StyleBlock) : entriesOf style.items = style.entries := by
  obtain ⟨tags, entries⟩ := style
  rw [StyleBlock.items]
  induction tags with
  | nil =>
      induction entries with
      | nil => rfl
      | cons entry rest step => exact congrArg (entry :: ·) step
  | cons tag rest step => exact step

theorem StyleText.canonical (written : StyleText style text) :
    StyleText style style.canonical := by
  obtain @⟨items, body, tags, entries, inside⟩ := written
  have each : ∀ item ∈ style.items, ItemText item item.canonical := by
    intro item held
    have old : item ∈ items := by
      rcases List.mem_append.1 held with tagged | entered
      · obtain ⟨tag, listed, rfl⟩ := List.mem_map.1 tagged
        exact mem_tagsOf (tags ▸ listed)
      · obtain ⟨entry, listed, rfl⟩ := List.mem_map.1 entered
        exact mem_entriesOf (entries ▸ listed)
    obtain ⟨_, written⟩ := inside.forall_written item old
    exact written.canonical
  exact .intro (tagsOf_items style) (entriesOf_items style) (Body.tight parting_blank each)

theorem StyleTail.canonical {style : Option StyleBlock} (written : StyleTail style text) :
    StyleTail style (style.elim [] StyleBlock.canonical) := by
  cases written with
  | missing => exact .missing
  | present filling written => exact StyleTail.present .nil written.canonical

end Styles

/-! ### Calls -/

section Calls

variable {text : List Char}

/-- Arguments that are printed one by one are a list of arguments. -/
theorem Body.arguments {arguments : List Argument}
    (each : ∀ argument ∈ arguments, ArgumentText argument argument.canonical) :
    Body ArgumentText (Comma isMultilineBlank) (Filling isMultilineBlank) arguments
      ([',', ' '].intercalate (Argument.canonicals arguments)) := by
  rw [Argument.canonicals_eq_map]
  exact Body.tight (comma_blank (by decide)) each

mutual

theorem ArgumentText.canonical : ∀ {argument : Argument} {text : List Char},
    ArgumentText argument text → ArgumentText argument argument.canonical
  | .call ⟨_, _⟩, _, .call written => .call written.canonical
  | .reference _, _, .reference written => .reference written.canonical
termination_by structural argument => argument

theorem CallText.canonical : ∀ {made : Call} {text : List Char},
    CallText ArgumentText made text → CallText ArgumentText made (Call.canonical made)
  | ⟨_, arguments, _⟩, _, .intro isName _ inside styled => by
      have body := Body.arguments (ArgumentText.canonical_each arguments inside.forall_written)
      have made := CallText.intro isName .nil body styled.canonical
      simpa [Call.canonical, inParens] using made
termination_by structural made => made

theorem ArgumentText.canonical_each : ∀ (arguments : List Argument),
    (∀ argument ∈ arguments, ∃ text, ArgumentText argument text) →
      ∀ argument ∈ arguments, ArgumentText argument argument.canonical
  | [], _ => nofun
  | _ :: rest, each => by
      obtain ⟨⟨_, first⟩, others⟩ := List.forall_mem_cons.1 each
      exact List.forall_mem_cons.2 ⟨first.canonical, ArgumentText.canonical_each rest others⟩
termination_by structural arguments => arguments

end

end Calls

/-! ### Statements -/

section Statements

variable {text : List Char}

theorem TargetText.canonical {target : Target} (written : TargetText target text) :
    TargetText target target.canonical := by
  obtain ⟨isName, styled⟩ := written
  exact .intro isName styled.canonical

theorem inlineBlank : Filling isInlineBlank [' '] :=
  .blank (by decide)

theorem LeadingName.canonical {name : Option (Spanned String)} {gap : List Char}
    (named : LeadingName name text) (filling : Filling isInlineBlank gap) :
    LeadingName name (inFront gap name) := by
  cases named with
  | missing => exact .missing
  | present isName _ => exact .present isName filling

theorem ImportText.canonical {source : Import} (written : ImportText source text) :
    ImportText source source.canonical := by
  obtain ⟨named, _, location⟩ := written
  exact .intro (named.canonical inlineBlank) inlineBlank location.canonical

theorem ArgumentsTail.canonical {arguments : List Argument}
    (passed : ArgumentsTail arguments text) :
    ArgumentsTail arguments
      (if arguments.isEmpty then [] else inParens (Argument.canonicals arguments)) := by
  cases arguments with
  | nil => exact .missing
  | cons argument rest =>
      cases passed with
      | present filling inside =>
          exact ArgumentsTail.present .nil
            (.arguments (ArgumentText.canonical_each _ inside.forall_written))

/-- Statements on lines of their own are a list of statements. -/
theorem Body.lines {statements : List (Spanned Statement)}
    (each : ∀ statement ∈ statements, StatementText statement.value statement.value.canonical) :
    Body SpannedText Breaking (Filling isSeparator) statements
      ('\n' :: onLines (Statement.canonicals statements)) := by
  have line : Filling isSeparator ['\n'] := .blank (by decide)
  rw [Statement.canonicals_eq_map]
  exact Body.of_forall (@Filling.breaking [] line) line line each

mutual

theorem StatementText.canonical : ∀ {statement : Statement} {text : List Char},
    StatementText statement text → StatementText statement statement.canonical
  | .call _, _, .call written => .call written.canonical
  | .assignment targets producer, _, .assignment targeted _ _ produced => by
      obtain ⟨nonempty, each⟩ := targeted.forall_written
      have left : Run TargetText (Comma isInlineBlank) targets _ :=
        .of_forall nonempty (comma_blank (by decide)) fun target held =>
          (each target held).elim fun _ written => written.canonical
      exact .assignment left inlineBlank inlineBlank produced.canonical
  | .alias _ _, _, .alias targeted _ _ written =>
      .alias targeted.canonical inlineBlank inlineBlank written.canonical
  | .namedStyle _ _, _, .namedStyle isName _ written => .namedStyle isName .nil written.canonical
  | .styleBinding _ tags, _, .styleBinding isName _ inside => by
      have body : Body TagText Parting (Filling isSeparator) tags _ :=
        .tight parting_blank fun tag held =>
          (inside.forall_written tag held).elim fun _ written => written.canonical
      exact .styleBinding isName .nil body
  | .level _, _, .level written => .level written.canonical
  | .fetched _, _, .fetched written => .fetched written.canonical
  | .reference _, _, .reference written => .reference written.canonical
termination_by structural statement => statement

theorem ProducerText.canonical : ∀ {producer : Producer} {text : List Char},
    ProducerText StatementText producer text →
      ProducerText StatementText producer (Producer.canonical producer)
  | .call _, _, .call written => .call written.canonical
  | .level ⟨_, _⟩, _, .level written => .level written.canonical
  | .fetched _, _, .fetched written => .fetched written.canonical
termination_by structural producer => producer

theorem NamespaceText.canonical : ∀ {level : Namespace} {text : List Char},
    NamespaceText StatementText level text →
      NamespaceText StatementText level (Namespace.canonical level)
  | ⟨_, statements, _, _⟩, _, .intro named inside passed styled =>
      .intro (named.canonical .nil)
        (.lines (StatementText.canonical_each statements inside.forall_written)) passed.canonical
        styled.canonical
termination_by structural level => level

theorem StatementText.canonical_each : ∀ (statements : List (Spanned Statement)),
    (∀ statement ∈ statements, ∃ text, StatementText statement.value text) →
      ∀ statement ∈ statements, StatementText statement.value statement.value.canonical
  | [], _ => nofun
  | ⟨_, _⟩ :: rest, each => by
      obtain ⟨⟨_, first⟩, others⟩ := List.forall_mem_cons.1 each
      exact List.forall_mem_cons.2 ⟨first.canonical, StatementText.canonical_each rest others⟩
termination_by structural statements => statements

end

theorem RecipeText.canonical {statements : List (Spanned Statement)}
    (written : RecipeText statements text) :
    RecipeText statements (onLines (Statement.canonicals statements)) := by
  have line : Filling isSeparator ['\n'] := .blank (by decide)
  have behind : Filling isSeparator (['\n'] ++ ['\n']) := line.append line
  cases written with
  | empty filling => exact .empty behind
  | filled before run behind' =>
      obtain ⟨nonempty, each⟩ := run.forall_written
      rw [Statement.canonicals_eq_map]
      exact .filled .nil (.of_forall nonempty (@Filling.breaking [] line)
        (StatementText.canonical_each statements each)) behind

end Statements

end Parser

namespace Recipe

/-- Some text of the grammar is a text of the recipe. -/
def WellFormed (recipe : Recipe) : Prop :=
  ∃ text, Parser.RecipeText recipe.statements text

theorem WellFormed.canonical_written {recipe : Recipe} (wellFormed : recipe.WellFormed) :
    Parser.RecipeText recipe.statements recipe.canonical.toList := by
  obtain ⟨text, written⟩ := wellFormed
  rw [Recipe.canonical, String.toList_ofList]
  exact written.canonical

/-- Closing brackets are optional at the end of a recipe: whatever part of the end of its canonical
text consists of them and of blanks, the parser accepts the text without it, and reads the same
recipe. -/
theorem parse_canonical_cut {recipe : Recipe} (wellFormed : recipe.WellFormed)
    {kept dropped : String} (whole : recipe.canonical = kept ++ dropped)
    (closing : ∀ c ∈ dropped.toList, Parser.Closes c) :
    ∃ read, parse kept = .ok read ∧ recipe.agrees read = true := by
  refine parse_cut wellFormed.canonical_written ⟨dropped.toList, ?_, closing⟩
  rw [whole, String.toList_append]

/-- A call with a style. -/
def heatWater : Call :=
  ⟨⟨"heat", default⟩, [.reference ⟨⟨["water"]⟩, default⟩], some ⟨[], [.property "warm" "very"]⟩⟩

/-- A call that is passed the other one. -/
def serveTea : Call :=
  ⟨⟨"serve", default⟩, [.reference ⟨⟨["cup"]⟩, default⟩, .call ⟨heatWater, default⟩], none⟩

/-- An assignment of a namespace in which all that happens. -/
def teaTime : Recipe :=
  ⟨[⟨.assignment [⟨⟨"tea", default⟩, none⟩] (.level
    ⟨⟨some ⟨"kitchen", default⟩, [⟨.call serveTea, default⟩], [], none⟩, default⟩), default⟩]⟩

open RecipeGraph.Parser in
theorem teaTime_wellFormed : teaTime.WellFormed := by
  have line : Filling isSeparator ['\n'] := .blank (by decide)
  have path (name : String) (isName : IsName name) :
      ArgumentText (.reference ⟨⟨[name]⟩, default⟩) name.toList :=
    .reference (.one ⟨isName, rfl⟩)
  have warm : ItemText (.entry (.property "warm" "very")) _ :=
    .property (by decide) .nil inlineBlank (.intro (.inl rfl) (by decide) (by decide))
  have style : StyleTail heatWater.style _ :=
    .present .nil (.intro rfl rfl (.filled .nil (.one warm) .nil))
  have heat : CallText ArgumentText heatWater _ :=
    .intro (by decide) .nil (.filled .nil (.one (path "water" (by decide))) .nil) style
  have arguments : Run ArgumentText (Comma isMultilineBlank) serveTea.arguments _ :=
    .more (path "cup" (by decide)) (comma_blank (by decide)) (.one (.call heat))
  have serve : StatementText (.call serveTea) _ :=
    .call (.intro (by decide) .nil (.filled .nil arguments .nil) .missing)
  have tea : Run SpannedText Breaking teaTime.statements _ :=
    .one (.assignment (.one (.intro (by decide) .missing)) inlineBlank inlineBlank (.level
      (.intro (.present (by decide) .nil) (.filled line (.one serve) line) .missing .missing)))
  exact ⟨_, .filled .nil tea (line.append line)⟩

/-- A style, a list of arguments and a namespace need not be closed at the end. -/
theorem parse_canonical_cut_of_teaTime :
    teaTime.WellFormed ∧
      teaTime.canonical =
        "tea = kitchen[\nserve(cup, heat(water)\x7bwarm: \"very\"" ++ "\x7d)\n]\n" ∧
      (∀ c ∈ "\x7d)\n]\n".toList, Parser.Closes c) ∧
      ∃ read, parse "tea = kitchen[\nserve(cup, heat(water)\x7bwarm: \"very\"" = .ok read ∧
        teaTime.agrees read = true :=
  have whole : teaTime.canonical =
      "tea = kitchen[\nserve(cup, heat(water)\x7bwarm: \"very\"" ++ "\x7d)\n]\n" := by decide
  have all : ("\x7d)\n]\n".toList.all fun c => decide (Parser.Closes c)) = true := by decide
  have closing : ∀ c ∈ "\x7d)\n]\n".toList, Parser.Closes c :=
    fun c held => of_decide_eq_true (List.all_eq_true.1 all c held)
  ⟨teaTime_wellFormed, whole, closing, parse_canonical_cut teaTime_wellFormed whole closing⟩

end Recipe

end RecipeGraph
