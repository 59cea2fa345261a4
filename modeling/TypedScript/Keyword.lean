/-
**Keywords.** The words that start a statement of their own kind, and `await`. None of them can name
a value.
-/

import TypedScript.Text.Alphabet

namespace TypedScript

/-- A reserved word. -/
inductive Keyword where
  | returns
  | constant
  | await
  | imports
  | function
  | ifThen
  | otherwise
  | loop
  deriving DecidableEq, Repr

namespace Keyword

/-- How the keyword is written. -/
def spelling : Keyword → String
  | .returns => "return"
  | .constant => "const"
  | .await => "await"
  | .imports => "import"
  | .function => "func"
  | .ifThen => "if"
  | .otherwise => "else"
  | .loop => "while"

/-- All keywords. -/
def all : List Keyword :=
  [.returns, .constant, .await, .imports, .function, .ifThen, .otherwise, .loop]

/-- The keyword of a word. -/
def ofSpelling? (word : List Char) : Option Keyword :=
  all.find? fun keyword => keyword.spelling.toList == word

/-- The keyword that a text starts with. -/
def leading? (text : List Char) : Option Keyword :=
  ofSpelling? (Text.leadingWord text)

end Keyword

end TypedScript
