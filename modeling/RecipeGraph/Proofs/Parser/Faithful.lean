/-
# Faithful positions

What it means for a syntax tree to stand in a text where its spans say. Every span covers a stretch
of the text between two character boundaries, and a part never sticks out of what it is a part of.
Names, paths and the locations of imports are found in the text exactly at their spans; a location
that was left out has an empty span. Statements and arguments stand one behind the other, so that
their spans do not overlap. Nothing here depends on how texts are read.
-/

import RecipeGraph.Diagnostic
import RecipeGraph.Proofs.Parser.Grammar
import RecipeGraph.Recipe

namespace RecipeGraph

namespace Span

/-- The span lies inside a text, with both ends on character boundaries. -/
structure Within (source : String) (span : Span) : Prop where
  ordered : span.start ≤ span.stop
  inside : span.stop ≤ source.utf8ByteSize
  start_isValid : (String.Pos.Raw.mk span.start).IsValid source
  stop_isValid : (String.Pos.Raw.mk span.stop).IsValid source

/-- What a text holds at the span. -/
def Shows (source : String) (span : Span) (text : String) : Prop :=
  ∃ before behind : String, source = before ++ text ++ behind ∧
    span.start = before.utf8ByteSize ∧ span.stop = (before ++ text).utf8ByteSize

/-- One span ends before another begins, or where it begins. -/
def Before (one other : Span) : Prop :=
  one.stop ≤ other.start

theorem Shows.within {source text : String} {span : Span} (shows : span.Shows source text) :
    span.Within source := by
  obtain ⟨before, behind, rfl, start, stop⟩ := shows
  rw [String.utf8ByteSize_append] at stop
  refine ⟨by omega, ?_, ?_, ?_⟩
  · rw [String.utf8ByteSize_append, String.utf8ByteSize_append]
    omega
  · refine String.Pos.Raw.isValid_iff_exists_append.2 ⟨before, text ++ behind, ?_, ?_⟩
    · rw [String.append_assoc]
    · exact congrArg String.Pos.Raw.mk start
  · refine String.Pos.Raw.isValid_iff_exists_append.2 ⟨before ++ text, behind, rfl, ?_⟩
    exact congrArg String.Pos.Raw.mk (stop.trans (String.utf8ByteSize_append ..).symm)

end Span

/-- Every label of the diagnostic lies inside a text, on character boundaries. -/
def Diagnostic.Within (source : String) (diagnostic : Diagnostic) : Prop :=
  ∀ label ∈ diagnostic.labels, label.span.Within source

/-- What is written as `text` stands at its span, inside a wider one. -/
structure Spanned.Stands {α : Type} (source : String) (outer : Span) (text : String)
    (item : Spanned α) : Prop where
  inside : item.span.Inside outer
  shows : item.span.Shows source text

section Parts

variable (source : String) (outer : Span)

def StyleBlock.Faithful (block : StyleBlock) : Prop :=
  ∀ tag ∈ block.tags, tag.Stands source outer tag.value.joined

def Target.Faithful (target : Target) : Prop :=
  target.name.Stands source outer target.name.value ∧
    ∀ block ∈ target.style, block.Faithful source outer

/-- The location of an import stands in its quotes, or is empty and nothing stands there. -/
def Spanned.FaithfulLocation (location : Spanned String) : Prop :=
  location.value = "" ∧ location.Stands source outer "" ∨
    ∃ text : String, Parser.QuotedText location.value text.toList ∧ location.Stands source outer text

def Import.Faithful (fetched : Import) : Prop :=
  fetched.location.FaithfulLocation source outer ∧
    ∀ name ∈ fetched.name, name.Stands source outer name.value

end Parts

/-- Where an argument stands. -/
def Argument.span : Argument → Span
  | .call made => made.span
  | .reference path => path.span

mutual

/-- An argument stands in a span. -/
def Argument.Faithful (source : String) (outer : Span) : Argument → Prop
  | .call ⟨made, span⟩ =>
    span.Inside outer ∧ span.Within source ∧ Call.Faithful source span made
  | .reference path => path.Stands source outer path.value.joined
termination_by structural argument => argument

/-- The name of a call, its arguments and its style stand in a span. -/
def Call.Faithful (source : String) (span : Span) : CallOf Argument → Prop
  | ⟨name, arguments, style⟩ =>
    name.Stands source span name.value ∧ Argument.listFaithful source span arguments ∧
      ∀ block ∈ style, block.Faithful source span
termination_by structural made => made

/-- Arguments stand in a span, one behind the other. -/
def Argument.listFaithful (source : String) (outer : Span) : List Argument → Prop
  | [] => True
  | argument :: rest =>
    argument.Faithful source outer ∧ (∀ later ∈ rest, argument.span.Before later.span) ∧
      Argument.listFaithful source outer rest
termination_by structural arguments => arguments

end

mutual

/-- The parts of a statement stand in the span of the statement. -/
def Statement.Faithful (source : String) (span : Span) : Statement → Prop
  | .call made => Call.Faithful source span made
  | .assignment targets producer =>
    (∀ target ∈ targets, target.Faithful source span) ∧ Producer.Faithful source span producer
  | .alias target path =>
    target.Faithful source span ∧ path.Stands source span path.value.joined
  | .namedStyle name style => name.Stands source span name.value ∧ style.Faithful source span
  | .styleBinding keyword tags =>
    keyword.Stands source span keyword.value ∧
      ∀ tag ∈ tags, tag.Stands source span tag.value.joined
  | .level level => Namespace.Faithful source span level
  | .fetched fetched => fetched.Faithful source span
  | .reference path => path.Stands source span path.value.joined
termination_by structural statement => statement

/-- What produces the value of an assignment stands in a span. -/
def Producer.Faithful (source : String) (outer : Span) : ProducerOf Statement → Prop
  | .call ⟨made, span⟩ => span.Inside outer ∧ span.Within source ∧ Call.Faithful source span made
  | .level ⟨level, span⟩ =>
    span.Inside outer ∧ span.Within source ∧ Namespace.Faithful source span level
  | .fetched ⟨fetched, span⟩ =>
    span.Inside outer ∧ span.Within source ∧ fetched.Faithful source span
termination_by structural producer => producer

/-- The parts of a namespace stand in a span. -/
def Namespace.Faithful (source : String) (span : Span) : NamespaceOf Statement → Prop
  | ⟨name, statements, arguments, style⟩ =>
    (∀ word ∈ name, word.Stands source span word.value) ∧
      Statement.listFaithful source span statements ∧
      Argument.listFaithful source span arguments ∧ ∀ block ∈ style, block.Faithful source span
termination_by structural level => level

/-- Statements stand in a span, one behind the other. -/
def Statement.listFaithful (source : String) (outer : Span) : List (Spanned Statement) → Prop
  | [] => True
  | ⟨statement, span⟩ :: rest =>
    (span.Inside outer ∧ span.Within source ∧ statement.Faithful source span) ∧
      (∀ later ∈ rest, span.Before later.span) ∧ Statement.listFaithful source outer rest
termination_by structural statements => statements

end

/-! ### Lists -/

section Lists

variable {source : String} {outer : Span}

theorem Argument.Faithful.inside {argument : Argument} (faithful : argument.Faithful source outer) :
    argument.span.Inside outer := by
  cases argument with
  | call made => exact faithful.1
  | reference path => exact Spanned.Stands.inside faithful

theorem Argument.listFaithful_iff {arguments : List Argument} :
    Argument.listFaithful source outer arguments ↔
      (∀ argument ∈ arguments, argument.Faithful source outer) ∧
        arguments.Pairwise fun one other => one.span.Before other.span := by
  induction arguments with
  | nil => simp [Argument.listFaithful]
  | cons argument rest step =>
      rw [Argument.listFaithful, step, List.forall_mem_cons, List.pairwise_cons]
      tauto

theorem Statement.listFaithful_iff {statements : List (Spanned Statement)} :
    Statement.listFaithful source outer statements ↔
      (∀ item ∈ statements, item.span.Inside outer ∧ item.span.Within source ∧
          item.value.Faithful source item.span) ∧
        statements.Pairwise fun one other => one.span.Before other.span := by
  induction statements with
  | nil => simp [Statement.listFaithful]
  | cons item rest step =>
      rw [Statement.listFaithful, step, List.forall_mem_cons, List.pairwise_cons]
      tauto

end Lists

end RecipeGraph
