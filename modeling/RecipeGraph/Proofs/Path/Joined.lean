/-
# Joining and splitting

A registry keeps a qualified path under one text, and a text is read back as a path. Every text is
the joined form of the path that it is split into. The other way round two things are lost: the
empty path is written like the path of one empty segment, and a separator inside a segment cannot be
told from one between two segments. Nothing else is.
-/

import RecipeGraph.QualifiedPath

namespace RecipeGraph.QualifiedPath

/-- A path that can be recovered from its joined form: it has a segment, and no segment holds the
separator. -/
structure Recoverable (path : QualifiedPath) : Prop where
  nonempty : path.segments ≠ []
  solid : ∀ segment ∈ path.segments, separator ∉ segment.toList

/-- Joining writes the characters of the segments one after the other, with the separator between
neighbours. -/
theorem toList_joined (path : QualifiedPath) :
    path.joined.toList = [separator].intercalate (path.segments.map String.toList) := by
  suffices written : ∀ segments, (joinSegments segments).toList =
      [separator].intercalate (segments.map String.toList) from written path.segments
  intro segments
  induction segments with
  | nil => rfl
  | cons segment rest step =>
      cases rest with
      | nil => exact (List.intercalate_singleton ..).symm
      | cons next rest =>
          rw [joinSegments, String.toList_append, String.toList_append, String.toList_singleton, step]
          exact List.intercalate_cons_cons.symm

/-- The segments of a text are what its characters are split into. -/
theorem segments_ofJoined (text : String) :
    (ofJoined text).segments.map String.toList = text.toList.splitOn separator := by
  rw [ofJoined, List.map_map, Text.pieces_eq_splitOn]
  exact (List.map_congr_left fun piece _ => String.toList_ofList).trans (List.map_id _)

/-- Whatever a text is split into can be recovered from its joined form. -/
theorem recoverable_ofJoined (text : String) : (ofJoined text).Recoverable where
  nonempty := fun empty => Text.pieces_ne_nil separator text.toList (List.map_eq_nil_iff.1 empty)
  solid segment held := by
    obtain ⟨piece, cut, rfl⟩ := List.mem_map.1 held
    rw [String.toList_ofList]
    exact Text.separator_not_mem_piece cut

/-- Joining undoes splitting. -/
theorem joined_ofJoined (text : String) : (ofJoined text).joined = text := by
  rw [← String.toList_inj, toList_joined, segments_ofJoined, List.intercalate_splitOn]

/-- Splitting undoes joining where no segment holds the separator. -/
theorem Recoverable.ofJoined_joined {path : QualifiedPath} (recoverable : path.Recoverable) :
    ofJoined path.joined = path := by
  obtain ⟨segments⟩ := path
  have nonempty : segments.map String.toList ≠ [] := fun empty =>
    recoverable.nonempty (List.map_eq_nil_iff.1 empty)
  have solid : ∀ characters ∈ segments.map String.toList, separator ∉ characters := by
    intro characters held
    obtain ⟨segment, inside, rfl⟩ := List.mem_map.1 held
    exact recoverable.solid segment inside
  have characters : (ofJoined (joined ⟨segments⟩)).segments.map String.toList =
      segments.map String.toList := by
    rw [segments_ofJoined, toList_joined, List.splitOn_intercalate separator solid nonempty]
  exact congrArg QualifiedPath.mk ((List.map_inj_right fun _ _ => String.toList_inj.1).1 characters)

/-- Joining and splitting invert each other exactly where they can. A text is split into at least
one segment, none of which holds the separator, and joining them gives the text back. A path comes
back from its joined form exactly if it has a segment and none that holds the separator. -/
theorem joining_inverts_splitting :
    (∀ text, (ofJoined text).Recoverable ∧ (ofJoined text).joined = text) ∧
      ∀ path, ofJoined path.joined = path ↔ path.Recoverable := by
  refine ⟨fun text => ⟨recoverable_ofJoined text, joined_ofJoined text⟩, fun path => ?_⟩
  constructor
  · intro same
    rw [← same]
    exact recoverable_ofJoined path.joined
  · exact Recoverable.ofJoined_joined

example : ofJoined (joined ⟨[]⟩) = single "" ∧ ofJoined (single "a.b").joined = ⟨["a", "b"]⟩ := by
  decide

end RecipeGraph.QualifiedPath
