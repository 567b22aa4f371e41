/-
# The same text further on

A text that stands behind another one is read as it would be read alone, only that every place in it
lies further on by the same number of bytes. `Placed.moved` says what a value that was read looks
like further on: its spans move, and nothing else changes.
-/

import RecipeGraph.Parser.Statement

namespace RecipeGraph

/-- The same stretch of text so many bytes further on. -/
def Span.moved (bytes : Nat) (span : Span) : Span :=
  ⟨span.start + bytes, span.stop + bytes⟩

theorem Span.between_moved (bytes start stop : Nat) :
    Span.between (start + bytes) (stop + bytes) = (Span.between start stop).moved bytes := by
  rw [Span.between, Span.between, Span.moved, Nat.add_max_add_right]

/-- The same finding in a text that stands so many bytes further on. -/
def Diagnostic.moved (bytes : Nat) (diagnostic : Diagnostic) : Diagnostic :=
  { diagnostic with
    labels := diagnostic.labels.map fun label => { label with span := label.span.moved bytes } }

/-- What is read from a text, and tells where in the text it stands. -/
class Placed (α : Type) where
  /-- The same value in a text that stands so many bytes further on. -/
  moved : Nat → α → α

section Instances

variable {α : Type} [Placed α]

instance : Placed Unit := ⟨fun _ value => value⟩

instance : Placed Char := ⟨fun _ c => c⟩

instance : Placed String := ⟨fun _ text => text⟩

instance : Placed QualifiedPath := ⟨fun _ path => path⟩

instance : Placed StyleEntry := ⟨fun _ entry => entry⟩

instance : Placed (List α) := ⟨fun bytes items => items.map (Placed.moved bytes)⟩

instance : Placed (Option α) := ⟨fun bytes item => item.map (Placed.moved bytes)⟩

instance : Placed (Spanned α) :=
  ⟨fun bytes item => ⟨Placed.moved bytes item.value, item.span.moved bytes⟩⟩

instance : Placed StyleBlock :=
  ⟨fun bytes style => ⟨Placed.moved bytes style.tags, style.entries⟩⟩

instance : Placed (CallOf α) :=
  ⟨fun bytes made => ⟨Placed.moved bytes made.name, Placed.moved bytes made.arguments,
    Placed.moved bytes made.style⟩⟩

instance : Placed Target :=
  ⟨fun bytes target => ⟨Placed.moved bytes target.name, Placed.moved bytes target.style⟩⟩

instance : Placed Import :=
  ⟨fun bytes source => ⟨Placed.moved bytes source.location, Placed.moved bytes source.name⟩⟩

end Instances

mutual

/-- The same argument further on. -/
def Argument.moved (bytes : Nat) : Argument → Argument
  | .call ⟨⟨name, arguments, style⟩, span⟩ =>
    .call ⟨⟨Placed.moved bytes name, Argument.listMoved bytes arguments,
      Placed.moved bytes style⟩, span.moved bytes⟩
  | .reference path => .reference (Placed.moved bytes path)
termination_by structural argument => argument

/-- The same arguments further on. -/
def Argument.listMoved (bytes : Nat) : List Argument → List Argument
  | [] => []
  | argument :: arguments => argument.moved bytes :: Argument.listMoved bytes arguments
termination_by structural arguments => arguments

end

instance : Placed Argument := ⟨Argument.moved⟩

theorem Argument.listMoved_eq (bytes : Nat) (arguments : List Argument) :
    Argument.listMoved bytes arguments = Placed.moved bytes arguments := by
  induction arguments with
  | nil => rfl
  | cons argument arguments step =>
      rw [Argument.listMoved, step]
      rfl

theorem Argument.moved_call (bytes : Nat) (made : Spanned Call) :
    Placed.moved bytes (Argument.call made) = .call (Placed.moved bytes made) := by
  obtain ⟨⟨name, arguments, style⟩, span⟩ := made
  show Argument.moved bytes _ = _
  rw [Argument.moved, Argument.listMoved_eq]
  rfl

instance {σ : Type} [Placed σ] : Placed (NamespaceOf σ) :=
  ⟨fun bytes level => ⟨Placed.moved bytes level.name, Placed.moved bytes level.statements,
    Placed.moved bytes level.arguments, Placed.moved bytes level.style⟩⟩

instance {σ : Type} [Placed σ] : Placed (ProducerOf σ) where
  moved bytes
    | .call made => .call (Placed.moved bytes made)
    | .level level => .level (Placed.moved bytes level)
    | .fetched source => .fetched (Placed.moved bytes source)

mutual

/-- The same statement further on. -/
def Statement.moved (bytes : Nat) : Statement → Statement
  | .call made => .call (Placed.moved bytes made)
  | .assignment targets (.call made) =>
    .assignment (Placed.moved bytes targets) (.call (Placed.moved bytes made))
  | .assignment targets (.level ⟨⟨name, statements, arguments, style⟩, span⟩) =>
    .assignment (Placed.moved bytes targets) (.level ⟨⟨Placed.moved bytes name,
      Statement.listMoved bytes statements, Placed.moved bytes arguments,
      Placed.moved bytes style⟩, span.moved bytes⟩)
  | .assignment targets (.fetched source) =>
    .assignment (Placed.moved bytes targets) (.fetched (Placed.moved bytes source))
  | .alias target path => .alias (Placed.moved bytes target) (Placed.moved bytes path)
  | .namedStyle name style => .namedStyle (Placed.moved bytes name) (Placed.moved bytes style)
  | .styleBinding keyword tags =>
    .styleBinding (Placed.moved bytes keyword) (Placed.moved bytes tags)
  | .level ⟨name, statements, arguments, style⟩ =>
    .level ⟨Placed.moved bytes name, Statement.listMoved bytes statements,
      Placed.moved bytes arguments, Placed.moved bytes style⟩
  | .fetched source => .fetched (Placed.moved bytes source)
  | .reference path => .reference (Placed.moved bytes path)
termination_by structural statement => statement

/-- The same statements further on. -/
def Statement.listMoved (bytes : Nat) : List (Spanned Statement) → List (Spanned Statement)
  | [] => []
  | ⟨statement, span⟩ :: statements =>
    ⟨statement.moved bytes, span.moved bytes⟩ :: Statement.listMoved bytes statements
termination_by structural statements => statements

end

instance : Placed Statement := ⟨Statement.moved⟩

theorem Statement.listMoved_eq (bytes : Nat) (statements : List (Spanned Statement)) :
    Statement.listMoved bytes statements = Placed.moved bytes statements := by
  induction statements with
  | nil => rfl
  | cons statement statements step =>
      obtain ⟨statement, span⟩ := statement
      rw [Statement.listMoved, step]
      rfl

theorem Statement.moved_level (bytes : Nat) (level : Namespace) :
    Placed.moved bytes (Statement.level level) = .level (Placed.moved bytes level) := by
  obtain ⟨name, statements, arguments, style⟩ := level
  show Statement.moved bytes _ = _
  rw [Statement.moved, Statement.listMoved_eq]
  rfl

theorem Statement.moved_assignment (bytes : Nat) (targets : List Target) (producer : Producer) :
    Placed.moved bytes (Statement.assignment targets producer) =
      .assignment (Placed.moved bytes targets) (Placed.moved bytes producer) := by
  cases producer with
  | call made => rfl
  | level level =>
      obtain ⟨⟨name, statements, arguments, style⟩, span⟩ := level
      show Statement.moved bytes _ = _
      rw [Statement.moved, Statement.listMoved_eq]
      rfl
  | fetched source => rfl

end RecipeGraph
