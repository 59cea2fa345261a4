/-
**File trees.** The files below a directory, as a value. Of what lies outside the directory nothing
is known: no file is found there.
-/

import TypedScript.Files.Fault
import TypedScript.Files.Path

namespace TypedScript

/-- What a name in a directory stands for. -/
inductive Entry where
  | file (content : String)
  /-- A file that is not UTF-8. -/
  | binary
  | directory (entries : List (String × Entry))

/-- The entries of a directory. -/
abbrev FileTree : Type :=
  List (String × Entry)

namespace FileTree

/-- The entry of a name. -/
def find? (tree : FileTree) (name : String) : Option Entry :=
  (List.find? (fun entry => entry.1 == name) tree).map Prod.snd

/-- Adds an entry, or replaces the one of the same name. -/
def put (name : String) (entry : Entry) : FileTree → FileTree
  | [] => [(name, entry)]
  | (other, existing) :: rest =>
    if other = name then (name, entry) :: rest else (other, existing) :: put name entry rest

/-- Adds an entry at a path, with the directories that lead to it. A directory that is there already
stays. -/
def add : List String → Entry → FileTree → FileTree
  | [], _, tree => tree
  | [name], entry, tree =>
    match entry, tree.find? name with
    | .directory _, some (.directory _) => tree
    | _, _ => put name entry tree
  | name :: rest, entry, tree =>
    match tree.find? name with
    | some (.directory entries) => put name (.directory (add rest entry entries)) tree
    | _ => put name (.directory (add rest entry [])) tree

/-! ### Following paths -/

/-- The directories from the place that a path has led to up to the root of the tree, each with its
name. There are none outside the tree. -/
abbrev Route : Type :=
  List (String × FileTree)

/-- Where a path leads. -/
inductive Found where
  | file (content : String)
  | binary
  | directory (route : Route)

/-- The longest name of an entry, in bytes. -/
def nameLimit : Nat := 255

/-- The longest path, in bytes. -/
def pathLimit : Nat := 4095

/-- Where the parts of a path lead. -/
def follow : List String → Route → Except FileFault Found
  | [], route => .ok (.directory route)
  | part :: rest, route =>
    if part = "" || part = "." then follow rest route
    else if part = ".." then follow rest route.tail
    else if part.utf8ByteSize > nameLimit then .error .nameTooLong
    else
      match route with
      | [] => .error .notFound
      | (_, entries) :: _ =>
        match entries.find? part with
        | none => .error .notFound
        | some (.directory inner) => follow rest ((part, inner) :: route)
        | some (.file content) => if rest.isEmpty then .ok (.file content) else .error .notDirectory
        | some .binary => if rest.isEmpty then .ok .binary else .error .notDirectory

/-- Where a path starts: at the root or in the working directory. -/
def origin (tree : FileTree) (path : String) : Route :=
  if Path.isAbsolute path then [] else [("", tree)]

/-- Faults of a path that no entry is looked up for. -/
def checkPath (path : String) : Except FileFault Unit :=
  if path.toList.contains (Char.ofNat 0) then .error .nulInName
  else if path.isEmpty then .error .notFound
  else if path.utf8ByteSize > pathLimit then .error .nameTooLong
  else .ok ()

/-- The text of a file. -/
def read (tree : FileTree) (path : String) : Except FileFault String := do
  checkPath path
  match ← follow (Path.parts path) (tree.origin path) with
  | .file content => return content
  | .binary => .error .notText
  | .directory _ => .error .isDirectory

/-! ### Writing -/

/-- The whole tree after the innermost directory of a route has been replaced. -/
def rebuild (tree : FileTree) : FileTree → Route → FileTree
  | _, [] => tree
  | entries, [_] => entries
  | entries, (name, _) :: (outer, others) :: rest =>
    rebuild tree (put name (.directory entries) others) ((outer, others) :: rest)

/-- The parts of a path in front of the last one, the last one, and whether slashes follow. -/
def lastPart (parts : List String) : List String × String × Bool :=
  let kept := (parts.reverse.dropWhile String.isEmpty).reverse
  (kept.dropLast, kept.getLastD "", kept.length < parts.length)

/-- A tree in which a file has another text. -/
def write (tree : FileTree) (path content : String) : Except FileFault FileTree := do
  checkPath path
  let (parent, name, slashed) := lastPart (Path.parts path)
  match ← follow parent (tree.origin path) with
  | .file _ | .binary => .error .notDirectory
  | .directory route =>
    if slashed || name = "" || name = "." || name = ".." then .error .isDirectory
    else if name.utf8ByteSize > nameLimit then .error .nameTooLong
    else
      match route with
      | [] => if Path.isAbsolute path then .error .notFound else return tree
      | (_, entries) :: _ =>
        match entries.find? name with
        | some (.directory _) => .error .isDirectory
        | _ => return rebuild tree (put name (.file content) entries) route

/-! ### Comparing trees -/

mutual

/-- The files of an entry with their paths. -/
def filesOf (path : String) : Entry → List (String × String)
  | .file content => [(path, content)]
  | .binary => []
  | .directory entries => filesIn (path ++ "/") entries

/-- The text files of entries, with their paths. -/
def filesIn (above : String) : List (String × Entry) → List (String × String)
  | [] => []
  | (name, entry) :: rest => filesOf (above ++ name) entry ++ filesIn above rest

end

/-- The files that are new or different in another tree. -/
def changes (before after : FileTree) : List (String × String) :=
  (filesIn "" after).filter fun (path, content) =>
    !(filesIn "" before).contains (path, content)

end FileTree

end TypedScript
