/-
**Reading generated expressions.** A reader of expressions of generated programs by operator
precedence. Tokens are those of the language; accesses and calls bind closest, then the operators in
front of an operand, then those between operands in ten levels, each from left to right. Trees have
no parentheses.

What has to wait for an operand or for the end of a bracket stands in a frame. An operator between
operands completes the frames that bind as close as it does, or closer.
-/

import TypedScript.Target.Lexemes

namespace TypedScript.Target

/-- The tree of an expression. -/
inductive Tree where
  /-- A number or string as it is written. -/
  | literal (text : List Char)
  /-- A name, or one of the words for truth values and nothing. -/
  | word (word : String)
  | array (items : List Tree)
  | object (fields : List (List Char × Tree))
  | member (receiver : Tree) (name : String)
  | index (receiver index : Tree)
  | call (callee : Tree) (arguments : List Tree)
  | unary (op : String) (operand : Tree)
  | binary (op : String) (left right : Tree)
  /-- A function, of which the reader knows nothing. -/
  | function
  deriving Repr

/-! ### Tokens -/

/-- A token as it is written. -/
structure Piece where
  lexeme : Lexeme
  text : List Char
  deriving DecidableEq, Repr

/-- The tokens of a text of which the first `skip` characters belong to the token in front. A
comment has no tokens and leaves the text without a reading. -/
def pieces : Nat → List Char → Option (List Piece)
  | _, [] => some []
  | skip + 1, _ :: rest => pieces skip rest
  | 0, c :: rest =>
    if isSpace c || isLineBreak c then pieces 0 rest
    else
      let scanned := scan 1 (c :: rest)
      let length := (c :: rest).length - scanned.after.rest.length
      if scanned.faults.isEmpty then
        (pieces (length - 1) rest).map (⟨scanned.lexeme, (c :: rest).take length⟩ :: ·)
      else none

/-! ### Precedence -/

/-- The level of an operator between two operands, the loosest first. -/
def precedence? (mark : String) : Option Nat :=
  if mark = "||" then some 1
  else if mark = "&&" then some 2
  else if mark = "|" then some 3
  else if mark = "^" then some 4
  else if mark = "&" then some 5
  else if ["==", "!=", "===", "!=="].contains mark then some 6
  else if ["<", ">", "<=", ">="].contains mark then some 7
  else if ["<<", ">>", ">>>"].contains mark then some 8
  else if ["+", "-"].contains mark then some 9
  else if ["*", "/", "%"].contains mark then some 10
  else none

/-- The signs that stand in front of an operand. -/
def unaryMarks : List String :=
  ["!", "-", "+", "~"]

def isOperandWord (word : String) : Bool :=
  ["true", "false", "null"].contains word || (isName word && word != "await")

/-! ### Frames -/

/-- What waits for an operand or for the end of a bracket. -/
inductive Frame where
  /-- An operator in front of an operand. -/
  | unary (op : String)
  /-- The left side of an operation. -/
  | left (tree : Tree) (op : String)
  | group
  | index (receiver : Tree)
  | call (callee : Tree) (arguments : List Tree)
  | array (items : List Tree)
  /-- An object, the fields so far, and the key of the next one. -/
  | object (fields : List (List Char × Tree)) (label : List Char)
  deriving Repr

/-- What was read so far. The innermost frame comes first. -/
inductive State where
  /-- An operand comes next. -/
  | wanted (frames : List Frame)
  /-- An operand was read, but it may go on. -/
  | complete (frames : List Frame) (tree : Tree)
  /-- The name of a member comes next. -/
  | point (frames : List Frame) (receiver : Tree)
  | key (frames : List Frame) (fields : List (List Char × Tree))
  /-- The colon behind a key comes next. -/
  | colon (frames : List Frame) (fields : List (List Char × Tree)) (label : List Char)
  deriving Repr

/-- Completes the operators that bind at least as close as the given level. Those in front of an
operand bind closer than any level. -/
def reduce (level : Nat) : List Frame → Tree → List Frame × Tree
  | .unary op :: frames, tree => reduce level frames (.unary op tree)
  | .left left op :: frames, tree =>
    if level ≤ (precedence? op).getD 0 then reduce level frames (.binary op left tree)
    else (.left left op :: frames, tree)
  | frames, tree => (frames, tree)

namespace State

/-- The state behind a sign that ends an operand in a bracket. -/
def close (mark : String) (frames : List Frame) (tree : Tree) : Option State :=
  match frames with
  | .group :: frames => if mark = ")" then some (.complete frames tree) else none
  | .index receiver :: frames =>
    if mark = "]" then some (.complete frames (.index receiver tree)) else none
  | .call callee arguments :: frames =>
    if mark = ")" then some (.complete frames (.call callee (arguments ++ [tree])))
    else if mark = "," then some (.wanted (.call callee (arguments ++ [tree]) :: frames))
    else none
  | .array items :: frames =>
    if mark = "]" then some (.complete frames (.array (items ++ [tree])))
    else if mark = "," then some (.wanted (.array (items ++ [tree]) :: frames))
    else none
  | .object fields label :: frames =>
    if mark = "\x7d" then some (.complete frames (.object (fields ++ [(label, tree)])))
    else if mark = "," then some (.key frames (fields ++ [(label, tree)]))
    else none
  | _ => none

/-- The state behind a sign where an operand is wanted. A bracket that has nothing in it ends at
once. -/
def opened (mark : String) (frames : List Frame) : Option State :=
  if unaryMarks.contains mark then some (.wanted (.unary mark :: frames))
  else if mark = "(" then some (.wanted (.group :: frames))
  else if mark = "[" then some (.wanted (.array [] :: frames))
  else if mark = "\x7b" then some (.key frames [])
  else
    match frames with
    | .call callee [] :: frames =>
      if mark = ")" then some (.complete frames (.call callee [])) else none
    | .array [] :: frames => if mark = "]" then some (.complete frames (.array [])) else none
    | _ => none

def followed (mark : String) (frames : List Frame) (tree : Tree) : Option State :=
  if mark = "." then some (.point frames tree)
  else if mark = "[" then some (.wanted (.index tree :: frames))
  else if mark = "(" then some (.wanted (.call tree [] :: frames))
  else
    match precedence? mark with
    | some level =>
      let (frames, tree) := reduce level frames tree
      some (.wanted (.left tree mark :: frames))
    | none =>
      let (frames, tree) := reduce 0 frames tree
      close mark frames tree

/-- One token. -/
def step : State → Piece → Option State
  | .wanted frames, ⟨.number, text⟩ => some (.complete frames (.literal text))
  | .wanted frames, ⟨.text _, text⟩ => some (.complete frames (.literal text))
  | .wanted frames, ⟨.word word, _⟩ =>
    if word = "await" then some (.wanted (.unary "await" :: frames))
    else if isOperandWord word then some (.complete frames (.word word))
    else none
  | .wanted frames, ⟨.mark mark, _⟩ => opened mark frames
  | .complete frames tree, ⟨.mark mark, _⟩ => followed mark frames tree
  | .point frames receiver, ⟨.word word, _⟩ => some (.complete frames (.member receiver word))
  | .key frames fields, ⟨.text _, text⟩ => some (.colon frames fields text)
  | .key frames [], ⟨.mark "\x7d", _⟩ => some (.complete frames (.object []))
  | .colon frames fields label, ⟨.mark ":", _⟩ => some (.wanted (.object fields label :: frames))
  | _, _ => none

def run (state : State) (tokens : List Piece) : Option State :=
  tokens.foldlM step state

/-- The tree of what was read, if nothing is missing. -/
def finish : State → Option Tree
  | .complete frames tree =>
    match reduce 0 frames tree with
    | ([], tree) => some tree
    | _ => none
  | _ => none

end State

/-- Reads a text to its end. -/
def State.read (state : State) (text : List Char) : Option Tree := do
  let tokens ← pieces 0 text
  let after ← state.run tokens
  after.finish

/-- The tree of a text, if it is one expression. -/
def readExpression (text : List Char) : Option Tree :=
  State.read (.wanted []) text

end TypedScript.Target
