/-
# File paths

A path is a text with slashes in it. Its components are the parts between slashes; empty parts and
parts that are a single dot mean nothing, except that a path may start with a dot. What follows the
last component, slashes and dots, does not belong to it.

Recipes live below a root directory. A location inside the root is joined to it as it is written;
if the last component of the result has no extension, it gets the one recipe files have. Locations
that lead out of the root have no file.
-/

import RecipeGraph.Import.Error
import RecipeGraph.Text.Pieces

namespace RecipeGraph.FilePath

/-- A part of a path. -/
inductive Component where
  /-- The slash that a path from the root of the file system starts with. -/
  | root
  /-- A dot at the start of a path. -/
  | current
  /-- Two dots. -/
  | parent
  /-- A name. -/
  | normal (name : List Char)
deriving DecidableEq, Repr

/-- The pieces between slashes, empty ones included. -/
def pieces (path : List Char) : List (List Char) :=
  Text.pieces '/' path

/-- The component that a piece stands for, if any. -/
def componentOf? : List Char → Option Component
  | [] => none
  | ['.'] => none
  | ['.', '.'] => some .parent
  | name => some (.normal name)

/-- The components of a path. -/
def components (path : List Char) : List Component :=
  match path, pieces path with
  | '/' :: _, all => .root :: all.filterMap componentOf?
  | _, ['.'] :: rest => .current :: rest.filterMap componentOf?
  | _, all => all.filterMap componentOf?

/-- Drops what follows the last component from the end of a path, given and returned back to
front. -/
def dropTail : List Char → List Char
  | ['/'] => ['/']
  | '/' :: rest => dropTail rest
  | '.' :: '/' :: rest => dropTail ('/' :: rest)
  | path => path

/-- A path up to the end of its last component. -/
def body (path : List Char) : List Char :=
  (dropTail path.reverse).reverse

/-- The last component of a path, if it is a name. -/
def fileName? (path : List Char) : Option (List Char) :=
  let name := ((dropTail path.reverse).takeWhile (· != '/')).reverse
  if name = [] ∨ name = ['.'] ∨ name = ['.', '.'] then none else some name

/-- Whether a name has an extension: a dot somewhere behind its first character. -/
def hasExtension (name : List Char) : Bool :=
  name.tail.contains '.'

/-- The extension of recipe files. -/
def recipeExtension : List Char := ".fiz".toList

/-- Adds the extension of recipe files to the last component, unless it has an extension or is no
name. -/
def withRecipeExtension (path : List Char) : List Char :=
  match fileName? path with
  | some name => if hasExtension name then path else body path ++ recipeExtension
  | none => path

/-- Writes a relative path behind another path, with a slash between them unless there is one or the
other path is empty. -/
def join (base relative : List Char) : List Char :=
  if base.getLast?.all (· == '/') then base ++ relative else base ++ '/' :: relative

/-- Whether a component leads neither out of a directory nor to the root of the file system. -/
def Component.staysInside : Component → Bool
  | .root => false
  | .parent => false
  | .current => true
  | .normal _ => true

/-- The file of a recipe, given the root directory and the location. -/
def locate (root location : List Char) : Option (List Char) :=
  if (components location).all Component.staysInside then
    some (withRecipeExtension (join root location))
  else
    none

/-- The directory that holds what a path leads to. Paths to a root, and the empty path, have
none. -/
def parent? (path : List Char) : Option (List Char) :=
  match dropTail path.reverse with
  | [] => none
  | ['/'] => none
  | kept => some (dropTail (kept.dropWhile (· != '/'))).reverse

/-- The file of a recipe, as text; a location outside the root is one where nothing is found. -/
def forLocation (root location : String) : Except ImportError String :=
  match locate root.toList location.toList with
  | some path => .ok (String.ofList path)
  | none => .error (.notFound location)

end RecipeGraph.FilePath
