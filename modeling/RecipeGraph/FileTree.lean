/-
# Trees of files

Whoever only reads files needs to know what the file system answers to each path. A tree holds the
files and directories below the working directory as a value, so that it also says what is there
after a file is written. Looking something up in it follows the parts of a path one by one, and
everything on the way has to be a directory. A path may lead out of the working directory, or start
outside of it; there only the directories that hold others are known, and nothing that has a name.
-/

import RecipeGraph.FilePath
import RecipeGraph.Import.Loader

namespace RecipeGraph

/-- What stands at a place of a tree of files. -/
inductive FileEntry where
  | file (content : String)
  /-- A file that is there but cannot be read as a text. -/
  | unreadable (fault : ReadFault)
  | directory
deriving DecidableEq, Repr

/-- What the file system answers when asked for a path. -/
abbrev FileView : Type := String → Except SystemError FileEntry

namespace FileView

/-- The content of the file at a path. -/
def read (view : FileView) (path : String) : Except SystemError String :=
  match view path with
  | .ok (.file content) => .ok content
  | .ok (.unreadable fault) => .error fault.failure
  | .ok .directory => .error .isADirectory
  | .error failure => .error failure

/-- Whether a path leads to something. -/
def leadsSomewhere (view : FileView) (path : String) : Bool :=
  (view path).isOk

/-- Whether a path leads to a directory. -/
def isDirectory (view : FileView) (path : String) : Bool :=
  match view path with
  | .ok .directory => true
  | _ => false

end FileView

/-- A file system: what it answers to each path, and what becomes of it when a file is written. A
file is written as a whole or not at all. -/
structure FileSystem (σ : Type) where
  view : σ → FileView
  write : σ → (path content : String) → Except SystemError σ

/-- Where a path may lead. -/
inductive Place where
  /-- To the working directory or into it; these are the names on the way down. -/
  | inside (names : List String)
  /-- To a directory that is not in the working directory. -/
  | outside
deriving DecidableEq, Repr

namespace Place

/-- The working directory. -/
def here : Place := .inside []

/-- The directory that holds a place. Above the working directory one place is like another. -/
def up : Place → Place
  | .inside [] => .outside
  | .inside names => .inside names.dropLast
  | .outside => .outside

/-- What has a given name in a directory, if that directory is known. -/
def down? (place : Place) (name : String) : Option Place :=
  match place with
  | .inside names => some (.inside (names ++ [name]))
  | .outside => none

end Place

/-- Files and directories by the names on the way down from the working directory. -/
structure FileTree where
  entries : OrderedMap (List String) FileEntry
deriving DecidableEq, Repr

namespace FileTree

/-- The tree with nothing in the working directory. -/
def empty : FileTree := ⟨.empty⟩

instance : Inhabited FileTree := ⟨empty⟩

/-- What stands at a place. The working directory is always there, and so is what holds it. -/
def entryAt? (tree : FileTree) : Place → Option FileEntry
  | .inside [] => some .directory
  | .inside names => tree.entries.get? names
  | .outside => some .directory

/-- The greatest number of bytes that a name in a directory has. -/
def maxNameSize : Nat := 255

/-- One more than the greatest number of bytes that a path has. -/
def pathSizeLimit : Nat := 4096

/-- Follows the parts of a path from a place. -/
def follow (tree : FileTree) (place : Place) :
    (parts : List String) → Except SystemError Place
  | [] => .ok place
  | part :: rest =>
    match tree.entryAt? place with
    | none => .error .noSuchFile
    | some (.file _) => .error .notADirectory
    | some (.unreadable _) => .error .notADirectory
    | some .directory =>
      if part = "" ∨ part = "." then tree.follow place rest
      else if part = ".." then tree.follow place.up rest
      else if maxNameSize < part.utf8ByteSize then .error .nameTooLong
      else
        match place.down? part with
        | some inner => tree.follow inner rest
        | none => .error .noSuchFile

/-- The parts of a path between slashes. -/
def parts (path : String) : List String :=
  (FilePath.pieces path.toList).map String.ofList

/-- Whether a path starts at the root of the file system. -/
def isAbsolute (path : String) : Bool :=
  path.toList.head? == some '/'

/-- Where following a path starts. -/
def origin (path : String) : Place :=
  if isAbsolute path then .outside else .here

/-- Why a path cannot be followed at all, if it cannot. -/
def refusal? (path : String) : Option SystemError :=
  if '\x00' ∈ path.toList then some .nulInPath
  else if path = "" then some .noSuchFile
  else if pathSizeLimit ≤ path.utf8ByteSize then some .nameTooLong
  else none

/-- What a path leads to. -/
def view (tree : FileTree) : FileView := fun path =>
  match refusal? path with
  | some failure => .error failure
  | none =>
    match tree.follow (origin path) (parts path) with
    | .error failure => .error failure
    | .ok place =>
      match tree.entryAt? place with
      | some entry => .ok entry
      | none => .error .noSuchFile

/-- Writes a file into a directory that is there. A file that may not be read may not be written
either; any other file is replaced, whatever bytes it holds. -/
def writeAt (tree : FileTree) (place : Place) (name content : String) :
    Except SystemError FileTree :=
  match tree.entryAt? place, place.down? name with
  | some (.file _), _ => .error .notADirectory
  | some (.unreadable _), _ => .error .notADirectory
  | some .directory, some (.inside names) =>
    if maxNameSize < name.utf8ByteSize then
      .error .nameTooLong
    else
      match tree.entryAt? (.inside names) with
      | some .directory => .error .isADirectory
      | some (.unreadable .permission) => .error .permissionDenied
      | _ => .ok ⟨tree.entries.insert names (.file content)⟩
  | _, _ => .error .noSuchFile

/-- Writes a file, or leaves the tree as it is. -/
def write (tree : FileTree) (path content : String) : Except SystemError FileTree :=
  match refusal? path with
  | some failure => .error failure
  | none =>
    match tree.follow (origin path) (parts path).dropLast with
    | .error failure => .error failure
    | .ok place =>
      let name := (parts path).getLastD ""
      if name = "" ∨ name = "." ∨ name = ".." then
        match tree.entryAt? place with
        | some (.file _) => .error .notADirectory
        | some (.unreadable _) => .error .notADirectory
        | _ => .error .isADirectory
      else
        tree.writeAt place name content

/-- Trees as a file system. -/
def fileSystem : FileSystem FileTree := ⟨view, write⟩

/-- Makes the directories on the way from one place down to another. -/
def makeDirectories (tree : FileTree) (above : List String) : List String → FileTree
  | [] => tree
  | name :: rest =>
    let names := above ++ [name]
    let tree := if tree.entries.contains names then tree
      else ⟨tree.entries.insert names .directory⟩
    tree.makeDirectories names rest

/-- Puts a file at a path together with the directories it needs. A path that ends in a slash is a
directory. -/
def plant (tree : FileTree) (path content : String) : FileTree :=
  let names := (parts path).filter fun part => part ≠ "" ∧ part ≠ "."
  if path.toList.getLast? == some '/' then
    tree.makeDirectories [] names
  else
    let tree := tree.makeDirectories [] names.dropLast
    ⟨tree.entries.insert names (.file content)⟩

end FileTree

namespace Loader

/-- The loader of the recipe files below a root directory. -/
def ofFiles (files : FileView) (root : String) : Loader := fun location =>
  match FilePath.forLocation root location with
  | .error failure => .error failure
  | .ok path =>
    match files.read path with
    | .ok source => .ok source
    | .error .noSuchFile => .error (.notFound location)
    | .error reason => .error (.unreadable location reason)

end Loader

end RecipeGraph
