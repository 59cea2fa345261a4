/-
**Paths.** Paths are texts whose parts are divided by slashes; they are joined as they are, and
nothing in them is simplified.
-/

namespace TypedScript.Path

/-- Whether a path starts at the root of all files. -/
def isAbsolute (path : String) : Bool :=
  path.toList.head? == some '/'

/-- A path seen from a directory. -/
def join (directory path : String) : String :=
  if isAbsolute path then path
  else if directory.isEmpty || directory.toList.getLast? == some '/' then directory ++ path
  else directory ++ "/" ++ path

/-- The texts between slashes. -/
def partsOf : List Char → List (List Char)
  | [] => [[]]
  | c :: rest =>
    if c = '/' then [] :: partsOf rest
    else
      match partsOf rest with
      | [] => [[c]]
      | part :: others => (c :: part) :: others

/-- The texts between the slashes. -/
def parts (path : String) : List String :=
  (partsOf path.toList).map String.ofList

/-- The part of a name in front of its extension. A point at the start begins no extension. -/
def stem (name : List Char) : List Char :=
  match (name.reverse.dropWhile fun c => c != '.').reverse.dropLast with
  | [] => name
  | front => front

/-- A path with another extension. -/
def withExtension (path extension : String) : String :=
  let reversed := path.toList.reverse
  let name := (reversed.takeWhile fun c => c != '/').reverse
  let directory := (reversed.dropWhile fun c => c != '/').reverse
  String.ofList (directory ++ stem name) ++ "." ++ extension

end TypedScript.Path
