/-
**Faults of reading and writing files**, with the texts of the operating system.
-/

namespace TypedScript

/-- Why a file cannot be read or written. -/
inductive FileFault where
  | notFound
  /-- A part of the path other than the last is a file. -/
  | notDirectory
  /-- The path leads to a directory. -/
  | isDirectory
  | nameTooLong
  /-- The content of the file is not UTF-8. -/
  | notText
  /-- A NUL stands in the path. -/
  | nulInName
  /-- Anything else, in the words of the operating system. -/
  | other (text : String)
  deriving DecidableEq, Repr

/-- The text of a fault. -/
def FileFault.message : FileFault → String
  | .notFound => "No such file or directory (os error 2)"
  | .notDirectory => "Not a directory (os error 20)"
  | .isDirectory => "Is a directory (os error 21)"
  | .nameTooLong => "File name too long (os error 36)"
  | .notText => "stream did not contain valid UTF-8"
  | .nulInName => "file name contained an unexpected NUL byte"
  | .other text => text

end TypedScript
