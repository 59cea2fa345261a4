/-
**Lists separated by commas.** Arguments and parameters are cut at the commas outside of brackets.
Each piece is trimmed; an empty piece counts, but not behind the last comma.
-/

import TypedScript.Text.Blank

namespace TypedScript

open Text

/-- The brackets that hide commas, and whether string literals do. -/
structure Brackets where
  openers : List Char
  closers : List Char
  quotes : Bool

/-- The change of depth that a character of code makes. -/
def Brackets.change (brackets : Brackets) (c : Char) : Int :=
  if brackets.openers.contains c then 1 else if brackets.closers.contains c then -1 else 0

/-- Puts a character in front of the first of several pieces. -/
def consPiece (c : Char) : List (List Char) → List (List Char)
  | [] => [[c]]
  | piece :: pieces => (c :: piece) :: pieces

/-- The pieces of a text between commas at depth 0; there is always at least one. A flag says whether
the text starts inside of a string literal, another one whether a backslash is in front of it. -/
def piecesFrom (brackets : Brackets) : Bool → Bool → Int → List Char → List (List Char)
  | _, _, _, [] => [[]]
  | true, escaped, depth, c :: rest =>
    if escaped then consPiece c (piecesFrom brackets true false depth rest)
    else if c = '\\' then consPiece c (piecesFrom brackets true true depth rest)
    else consPiece c (piecesFrom brackets (c != '"') false depth rest)
  | false, escaped, depth, c :: rest =>
    if c = ',' && depth = 0 then [] :: piecesFrom brackets false escaped depth rest
    else
      consPiece c (piecesFrom brackets (brackets.quotes && c == '"') escaped
        (depth + brackets.change c) rest)

/-- The trimmed pieces, without an empty one behind the last comma. -/
def trimmedPieces (brackets : Brackets) (text : List Char) : List (List Char) :=
  let pieces := (piecesFrom brackets false false 0 text).map trim
  if pieces.getLast? = some [] then pieces.dropLast else pieces

/-- What keeps the arguments of a call together. -/
def argumentBrackets : Brackets :=
  ⟨['(', '[', '{'], [')', ']', '}'], true⟩

/-- What keeps the types of parameters together. -/
def parameterBrackets : Brackets :=
  ⟨['<', '(', '['], ['>', ')', ']'], false⟩

/-- Arguments, where brackets are `()`, `[]` and `{}` and string literals are skipped. -/
def splitArguments (text : List Char) : List (List Char) :=
  trimmedPieces argumentBrackets text

/-- The parameters of a function, empty ones left out. -/
def splitParameters (text : List Char) : List (List Char) :=
  (trimmedPieces parameterBrackets text).filter fun piece => !piece.isEmpty

end TypedScript
