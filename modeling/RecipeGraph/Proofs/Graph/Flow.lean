/-
# Flow without circles

What one element produces flows along an edge into another. A level is acyclic when nothing flows
back into itself. The edges of a level only ever come into being in three ways: they lead into an
element that nothing flows out of yet, they are those of another level with other elements, or they
are the images of edges under a change of identifiers. None of these closes a circle.
-/

import Mathlib.Logic.Relation
import Mathlib.Logic.Relator
import RecipeGraph.Dag.Basic

namespace RecipeGraph

open Relation (TransGen)

/-- Nothing is related to itself by a path. -/
def Acyclic {α : Type} (flows : α → α → Prop) : Prop :=
  ∀ here, ¬ TransGen flows here here

namespace Acyclic

variable {α β : Type} {flows later : α → α → Prop}

/-- New edges that all lead into a place with no way out close no circle. -/
theorem into_sink (acyclic : Acyclic flows) (sink : α) (noWayOut : ∀ next, ¬ later sink next)
    (added : ∀ one two, later one two → flows one two ∨ two = sink) : Acyclic later := by
  have path : ∀ {one two}, TransGen later one two → TransGen flows one two ∨ two = sink := by
    intro one two way
    induction way with
    | single step => exact (added _ _ step).imp .single id
    | @tail middle last _ step before =>
        rcases before with before | rfl
        · exact (added _ _ step).imp before.tail id
        · exact absurd step (noWayOut last)
  intro here circle
  rcases path circle with old | rfl
  · exact acyclic here old
  · obtain ⟨next, step, _⟩ := Relation.TransGen.head'_iff.1 circle
    exact noWayOut next step

/-- Two graphs without a vertex in common stay without circles when they are put together. -/
theorem union {others : α → α → Prop} (acyclic : Acyclic flows) (acyclic' : Acyclic others)
    (here : α → Prop) (inside : ∀ one two, flows one two → here one ∧ here two)
    (outside : ∀ one two, others one two → ¬ here one ∧ ¬ here two)
    (joined : ∀ one two, later one two → flows one two ∨ others one two) : Acyclic later := by
  have path : ∀ {one two}, TransGen later one two →
      here two ∧ TransGen flows one two ∨ ¬ here two ∧ TransGen others one two := by
    intro one two way
    induction way with
    | single step =>
        rcases joined _ _ step with step | step
        · exact .inl ⟨(inside _ _ step).2, .single step⟩
        · exact .inr ⟨(outside _ _ step).2, .single step⟩
    | tail _ step before =>
        rcases joined _ _ step with step | step
        · rcases before with ⟨_, before⟩ | ⟨apart, _⟩
          · exact .inl ⟨(inside _ _ step).2, before.tail step⟩
          · exact absurd (inside _ _ step).1 apart
        · rcases before with ⟨held, _⟩ | ⟨_, before⟩
          · exact absurd held (outside _ _ step).1
          · exact .inr ⟨(outside _ _ step).2, before.tail step⟩
  intro start circle
  rcases path circle with ⟨_, circle⟩ | ⟨_, circle⟩
  · exact acyclic start circle
  · exact acyclic' start circle

/-- A graph each of whose edges comes from one of another graph has a circle only if that one has,
provided that no two vertices of the other are carried to the same place. -/
theorem image {images : β → β → Prop} (acyclic : Acyclic flows) {carried : α → β → Prop}
    (unique : Relator.LeftUnique carried)
    (origin : ∀ one' two', images one' two' →
      ∃ one two, carried one one' ∧ carried two two' ∧ flows one two) : Acyclic images := by
  have path : ∀ {one' two'}, TransGen images one' two' →
      ∃ one two, carried one one' ∧ carried two two' ∧ TransGen flows one two := by
    intro one' two' way
    induction way with
    | single step =>
        obtain ⟨one, two, first, second, step⟩ := origin _ _ step
        exact ⟨one, two, first, second, .single step⟩
    | tail _ step before =>
        obtain ⟨one, middle, first, second, before⟩ := before
        obtain ⟨middle', two, second', third, step⟩ := origin _ _ step
        obtain rfl := unique second second'
        exact ⟨one, two, first, third, before.tail step⟩
  intro here' circle
  obtain ⟨one, two, first, second, circle⟩ := path circle
  obtain rfl := unique first second
  exact acyclic one circle

end Acyclic

namespace Dag

/-- An edge of the level leads from one element to another. -/
def Feeds (dag : Dag) (source target : Id) : Prop :=
  ∃ edge ∈ dag.edges.values, edge.source = source ∧ edge.target = target

end Dag

end RecipeGraph
