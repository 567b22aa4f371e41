/-
# Failures of the file system

What the operating system answers when a file cannot be read or written.
-/

namespace RecipeGraph

/-- Why the operating system refuses to read or write a file. -/
inductive SystemError where
  | noSuchFile
  | permissionDenied
  | notADirectory
  | isADirectory
  /-- The path, or a name in it, is longer than names may be. -/
  | nameTooLong
  /-- The path holds a NUL character, so no file can have it. -/
  | nulInPath
  /-- The bytes of the file are not the UTF-8 form of a text. -/
  | notText
deriving DecidableEq, Repr, Inhabited

namespace SystemError

/-- The text of the failure, with the system's number for it. -/
def message : SystemError → String
  | .noSuchFile => "No such file or directory (os error 2)"
  | .permissionDenied => "Permission denied (os error 13)"
  | .notADirectory => "Not a directory (os error 20)"
  | .isADirectory => "Is a directory (os error 21)"
  | .nameTooLong => "File name too long (os error 36)"
  | .nulInPath => "file name contained an unexpected NUL byte"
  | .notText => "stream did not contain valid UTF-8"

end SystemError

/-- Why a file that is there cannot be read as a text. -/
inductive ReadFault where
  /-- There is no permission to read it. -/
  | permission
  /-- It holds bytes that are no text. -/
  | encoding
deriving DecidableEq, Repr, Inhabited

namespace ReadFault

/-- What comes of reading the file. -/
def failure : ReadFault → SystemError
  | .permission => .permissionDenied
  | .encoding => .notText

end ReadFault

end RecipeGraph
