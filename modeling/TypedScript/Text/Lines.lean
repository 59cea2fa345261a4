/-
**Lines of a text.** A line ends behind its newline, and the last one ends with the text. An empty
text has no line, and a newline at the very end starts no further line.
-/

namespace TypedScript.Text

/-- The lines of a text, each with its newline if it has one. -/
def lines : List Char → List (List Char)
  | [] => []
  | c :: rest =>
    if c = '\n' then [c] :: lines rest
    else
      match lines rest with
      | [] => [[c]]
      | first :: others => (c :: first) :: others

/-- A line without the newlines and carriage returns at its end. -/
def withoutBreak (line : List Char) : List Char :=
  (line.reverse.dropWhile fun c => c == '\n' || c == '\r').reverse

/-- One line by its number, counted from 1, without its line break. -/
def lineAt (text : List Char) : Nat → Option (List Char)
  | 0 => none
  | n + 1 => (lines text)[n]?.map withoutBreak

end TypedScript.Text
