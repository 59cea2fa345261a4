/-
**Reading programs token by token.** A step of reading moves to a later place or stops at a fault.
Some faults do not stop it: they are noted at the place. The faults of tokens count before those of
the grammar, and among each the first one.
-/

import TypedScript.Target.Lexemes

namespace TypedScript.Target

/-- The next token, those looked at behind it, and the faults so far. -/
structure Place where
  token : Token
  ahead : List Token
  /-- The line on which the token before it ends. -/
  lastLine : Nat
  lexical : List Nat
  /-- The lines of other faults, the last one first. -/
  faults : List Nat

namespace Place

/-- The first token of a program. -/
def ofProgram (text : List Char) : Place :=
  let (token, faults) := Token.ofProgram text
  ⟨token, [], 1, faults, []⟩

/-- The line of the fault that counts. -/
def fault? (place : Place) : Option Nat :=
  place.lexical.getLast?.or place.faults.getLast?

/-- The place at the text behind a token. -/
def moved (place : Place) (tail : Tail) : Place :=
  let (token, faults) := tail.token false
  { place with token, ahead := [], lastLine := tail.line, lexical := faults ++ place.lexical }

/-- The place of the next token. -/
def next (place : Place) : Place :=
  match place.ahead with
  | token :: ahead => { place with token, ahead, lastLine := place.token.after.line }
  | [] => place.moved place.token.after

/-- The place with at least `count` tokens looked at. -/
def looking : Nat → Place → Place
  | 0, place => place
  | count + 1, place =>
    let place := place.looking count
    if count < place.ahead.length then place
    else
      let (token, faults) := (place.ahead.getLast?.getD place.token).after.token false
      { place with ahead := place.ahead ++ [token], lexical := faults ++ place.lexical }

end Place

/-- A step of reading. It gives a later place, or the line of the fault that counts. -/
abbrev Parse : Type → Type :=
  StateT Place (Except Nat)

namespace Parse

variable {α : Type}

/-! ### Faults -/

/-- A fault that does not end the reading. -/
def report (line : Nat) : Parse Unit :=
  modify fun place => { place with faults := line :: place.faults }

/-- Ends the reading with a fault. -/
def stop (line : Nat) : Parse α := fun place =>
  .error (place.fault?.getD line)

/-- Ends the reading at a token that cannot stand here. The fault of a text that is no token counts
as such a fault. -/
def unexpected : Parse α := fun place =>
  match place.token.lexeme, place.lexical with
  | .faulty, line :: lexical => stop line { place with lexical }
  | _, _ => stop place.token.line place

/-- A step that stays where it is if it fails. -/
def attempt (step : Parse α) : Parse (Option α) := fun place =>
  match step place with
  | .ok (value, place) => .ok (some value, place)
  | .error _ => .ok (none, place)

/-- A step that is only looked at. -/
def glance (step : Parse α) : Parse α := fun place =>
  (step place).map fun result => (result.1, place)

/-! ### Tokens -/

/-- The next token. -/
def token : Parse Token := do
  return (← get).token

/-- What the next token is. -/
def lexeme : Parse Lexeme := do
  return (← token).lexeme

/-- The line of the next token. -/
def line : Parse Nat := do
  return (← token).line

/-- Whether a line ended in front of the next token. -/
def onNewLine : Parse Bool := do
  return (← token).onNewLine

/-- A token further on. -/
def ahead (count : Nat) : Parse Token := do
  modify (Place.looking count)
  let place ← get
  return (place.ahead[count - 1]?).getD place.token

/-- Passes a token. -/
def next : Parse Unit :=
  modify Place.next

/-- Moves to the first token of a text. -/
def moveTo (tail : Tail) : Parse Unit :=
  modify fun place => place.moved tail

/-- Passes a token. Escapes in a word that has a meaning of its own are a fault. -/
def pass : Parse Unit := do
  let token ← token
  if token.escaped then report token.line
  next

/-- Whether a sign comes next. -/
def atMark (mark : String) : Parse Bool := do
  return (← lexeme) = .mark mark

/-- Whether a word comes next. -/
def atWord (word : String) : Parse Bool := do
  return (← lexeme) = .word word

/-- Passes a sign if it comes next. -/
def eat (mark : String) : Parse Bool := do
  if ← atMark mark then
    next
    return true
  else return false

/-- Passes a word if it comes next. -/
def eatWord (word : String) : Parse Bool := do
  if ← atWord word then
    pass
    return true
  else return false

/-- Passes a sign, which must come next. -/
def expect (mark : String) : Parse Unit := do
  if !(← eat mark) then stop (← line)

/-- Passes a word, which must come next. -/
def expectWord (word : String) : Parse Unit := do
  if !(← eatWord word) then stop (← line)

/-! ### Ends of statements -/

/-- Whether a statement may end in front of the next token. -/
def endsHere : Parse Bool := do
  let token ← token
  return token.onNewLine || [.mark ";", .mark "\x7d", .ending].contains token.lexeme

/-- The end of a statement, which may be left out at the end of a line. -/
def semicolon : Parse Unit := do
  if !(← endsHere) then stop (← get).lastLine
  let _ ← eat ";"

/-! ### Lists -/

/-- Whether a list ends in front of the next token. -/
def atEnd (close : String) : Parse Bool := do
  let lexeme ← lexeme
  return lexeme = .mark close || lexeme = .ending

/-- Whether the comma at the end of a list comes next. -/
def atLastComma (close : String) : Parse Bool := do
  if ← atMark "," then return (← ahead 1).lexeme = .mark close else return false

/-- Reads the items behind the first one. A comma in front of the end is passed if it is allowed to
stand there. -/
def moreItems (close : String) (trailing : Bool) (item : Parse α) : Nat → Parse (List α)
  | 0 => do stop (← line)
  | steps + 1 => do
    if ← atEnd close then return []
    if ← (if trailing then pure false else atLastComma close) then return []
    expect ","
    if ← atMark close then return []
    let value ← item
    return value :: (← moreItems close trailing item steps)

/-- Reads items with commas between them, up to a closing sign. -/
def items (steps : Nat) (close : String) (trailing : Bool) (item : Parse α) : Parse (List α) := do
  if ← atEnd close then return []
  let value ← item
  return value :: (← moreItems close trailing item steps)

/-- Reads items up to a closing sign, of which those behind `...` are told apart. The line of such
an item is a fault if another one follows. -/
def elements (close : String) (item : Parse Unit) (rest : Parse Nat) :
    Nat → Bool → Option Nat → Parse Unit
  | 0, _, _ => do stop (← line)
  | steps + 1, first, last? => do
    if ← atEnd close then return
    if !first then
      expect ","
      if ← atMark close then return
    if ← atMark "..." then
      let start ← rest
      if let some line := last? then report line
      elements close item rest steps false (some start)
    else
      item
      elements close item rest steps false last?

/-- Repeats a step until nothing is left for it. -/
def repeated (done : Parse Bool) (step : Parse Unit) : Nat → Parse Unit
  | 0 => do stop (← line)
  | steps + 1 => do
    if ← done then return
    step
    repeated done step steps

end Parse

end TypedScript.Target
