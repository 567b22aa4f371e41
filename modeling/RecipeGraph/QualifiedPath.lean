/-
# Qualified paths

A qualified path names something through nested levels: `ns.result` is the variable `result` of the
level `ns`. A path is a list of segments. It is written with a dot between neighbouring segments;
since a segment may hold any text, dots included, writing is not injective, and splitting a text
cuts it at every dot.
-/

import RecipeGraph.Text.Pieces

namespace RecipeGraph

/-- A name that may lead through several nested levels, one segment a level. -/
structure QualifiedPath where
  segments : List String
deriving DecidableEq, Repr, Inhabited

namespace QualifiedPath

/-- The character that stands between two segments. -/
def separator : Char := '.'

/-- A path of one segment. -/
def single (name : String) : QualifiedPath := ⟨[name]⟩

/-- The first segment, which selects a level or is the name itself. -/
def first? (path : QualifiedPath) : Option String :=
  path.segments.head?

/-- The last segment, the plain name at the end of the path. -/
def last? (path : QualifiedPath) : Option String :=
  path.segments.getLast?

/-- How many segments the path has. -/
def length (path : QualifiedPath) : Nat :=
  path.segments.length

/-- Whether the path has no segment. -/
def isEmpty (path : QualifiedPath) : Bool :=
  path.segments.isEmpty

/-- Whether the path leads through at least one level. -/
def isQualified (path : QualifiedPath) : Bool :=
  decide (1 < path.segments.length)

/-- Writes segments with a separator between neighbours. -/
def joinSegments : List String → String
  | [] => ""
  | [last] => last
  | segment :: next :: rest => segment ++ String.singleton separator ++ joinSegments (next :: rest)

/-- The path as one text. -/
def joined (path : QualifiedPath) : String :=
  joinSegments path.segments

instance : ToString QualifiedPath := ⟨joined⟩

/-- The path whose segments are the pieces of a text between its dots. -/
def ofJoined (text : String) : QualifiedPath :=
  ⟨(Text.pieces separator text.toList).map String.ofList⟩

/-- Compares segment by segment; of two paths that agree as far as the shorter one goes, the
shorter one comes first. Segments compare by code points, which is also the order of their bytes. -/
def compareSegments : List String → List String → Ordering
  | [], [] => .eq
  | [], _ :: _ => .lt
  | _ :: _, [] => .gt
  | one :: ones, other :: others => (compare one other).then (compareSegments ones others)

instance : Ord QualifiedPath := ⟨fun one other => compareSegments one.segments other.segments⟩

end QualifiedPath

end RecipeGraph
