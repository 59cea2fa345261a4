/-
**Tokens of generated programs.** Space and comments in front of a token are passed. A fault is told
by its line, and the token is read on, so a token comes with its faults. Whatever is left open
(string, comment, template, regular expression) is a fault on the line where it starts.
-/

import TypedScript.Target.Escapes

namespace TypedScript.Target

open Text

/-- Text and the number of its first line. -/
structure Tail where
  rest : List Char
  line : Nat

/-- What a token is. -/
inductive Lexeme where
  /-- A name or a reserved word. -/
  | word (text : String)
  | privateName (text : String)
  | number
  | text (content : String)
  /-- A template up to its end or its first expression, and whether its escapes are sound. -/
  | template (closed sound : Bool)
  /-- An operator, a bracket or another sign. -/
  | mark (text : String)
  /-- Text that is no token. -/
  | faulty
  | ending
  deriving DecidableEq, Repr

/-- A token and the text behind it. -/
structure Token where
  lexeme : Lexeme
  line : Nat
  /-- Whether a line ended in front of it. -/
  onNewLine : Bool
  /-- Whether it is a word with escapes. -/
  escaped : Bool
  /-- The text from its first character on. -/
  text : List Char
  after : Tail

/-! ### Space and comments -/

/-- Where space ends: text, its line, and whether a line ended in the space. -/
structure Gap where
  text : List Char
  line : Nat
  broken : Bool

mutual

/-- Passes space and comments. The signs of comments in markup start comments too: `<!--`
everywhere and `-->` on a new line. A comment without end gives the line where it starts. -/
def skipSpace (line : Nat) (broken : Bool) : List Char → Except Nat Gap
  | [] => .ok ⟨[], line, broken⟩
  | '/' :: '/' :: rest => skipLine line rest
  | '/' :: '*' :: rest => skipComment line line broken rest
  | '<' :: '!' :: '-' :: '-' :: rest => skipLine line rest
  | '-' :: '-' :: '>' :: rest =>
    if broken then skipLine line rest else .ok ⟨'-' :: '-' :: '>' :: rest, line, broken⟩
  | c :: rest =>
    if c = '\n' then skipSpace (line + 1) true rest
    else if isLineBreak c then skipSpace line true rest
    else if isSpace c then skipSpace line broken rest
    else .ok ⟨c :: rest, line, broken⟩

/-- Passes a comment that ends with its line. -/
def skipLine (line : Nat) : List Char → Except Nat Gap
  | [] => .ok ⟨[], line, true⟩
  | c :: rest =>
    if c = '\n' then skipSpace (line + 1) true rest
    else if isLineBreak c then skipSpace line true rest
    else skipLine line rest

/-- Passes over the rest of a comment, and the space behind it. -/
def skipComment (start line : Nat) (broken : Bool) : List Char → Except Nat Gap
  | [] => .error start
  | '*' :: '/' :: rest => skipSpace line broken rest
  | c :: rest =>
    if c = '\n' then skipComment start (line + 1) true rest
    else if isLineBreak c then skipComment start line true rest
    else skipComment start line broken rest

end

/-! ### Strings, templates and regular expressions -/

/-- Where a string ends. -/
structure StringEnd where
  after : Tail
  /-- Whether its quote was found. -/
  closed : Bool
  /-- The lines of its unsound escapes, the last one first. -/
  faults : List Nat

/-- The text behind a string. A line ends inside a string only behind a backslash. -/
def stringEnd (quote : Char) (line : Nat) (faults : List Nat) : List Char → StringEnd
  | [] => ⟨⟨[], line⟩, false, faults⟩
  | ['\\'] => ⟨⟨[], line⟩, false, faults⟩
  | '\\' :: '\r' :: '\n' :: rest => stringEnd quote (line + 1) faults rest
  | '\\' :: c :: rest =>
    stringEnd quote (if c = '\n' then line + 1 else line)
      (if isSoundEscape c rest then faults else line :: faults) rest
  | c :: rest =>
    if c = quote then ⟨⟨rest, line⟩, true, faults⟩
    else if c = '\n' then ⟨⟨rest, line + 1⟩, false, faults⟩
    else if c = '\r' then ⟨⟨rest, line⟩, false, faults⟩
    else stringEnd quote line faults rest

/-- A part of a template: what ends it and whether its escapes are sound. -/
structure TemplatePart where
  after : Tail
  /-- Whether the template ends here. Otherwise an expression follows. -/
  closed : Bool
  sound : Bool

/-- Reads a template up to its end or its next expression, if it has an end. -/
def templatePart (line : Nat) (sound : Bool) : List Char → Option TemplatePart
  | [] => none
  | '\x60' :: rest => some ⟨⟨rest, line⟩, true, sound⟩
  | '$' :: '{' :: rest => some ⟨⟨rest, line⟩, false, sound⟩
  | '\\' :: c :: rest =>
    templatePart (if c = '\n' then line + 1 else line)
      (sound && isSoundEscape c rest && !isNumericEscape c rest) rest
  | c :: rest => templatePart (if c = '\n' then line + 1 else line) sound rest

/-- The text behind a regular expression without its flags. A slash in a class does not end it. -/
def regexBody (inClass : Bool) : List Char → Option (List Char)
  | [] => none
  | '\\' :: c :: rest => if isLineBreak c then none else regexBody inClass rest
  | c :: rest =>
    if isLineBreak c then none
    else if c = '[' then regexBody true rest
    else if c = ']' then regexBody false rest
    else if c = '/' && !inClass then some rest
    else regexBody inClass rest

/-- The characters that are read as flags. -/
def regexFlags : List Char :=
  ['g', 'i', 'm', 's', 'u', 'y', 'd', 'v']

/-- Whether flags are known and different from each other. -/
def soundFlags : List Char → Bool
  | [] => true
  | flag :: rest => regexFlags.contains flag && !rest.contains flag && soundFlags rest

/-- The characters that are read as flags. -/
def isFlagChar (c : Char) : Bool :=
  c.toNat < 128 && isNamePart c

/-! ### Numbers -/

/-- Drops digits behind a first one, and tells whether a digit stands behind every `_` in them. -/
def dropDigits (isDigit : Char → Bool) : List Char → Bool × List Char
  | [] => (true, [])
  | ['_'] => (false, [])
  | '_' :: c :: rest => if isDigit c then dropDigits isDigit rest else (false, c :: rest)
  | c :: rest => if isDigit c then dropDigits isDigit rest else (true, c :: rest)

/-- Passes over digits, of which there is at least one. -/
def dropSomeDigits (isDigit : Char → Bool) : List Char → Bool × List Char
  | c :: rest => if isDigit c then dropDigits isDigit rest else (false, c :: rest)
  | [] => (false, [])

/-- Passes over digits, if there are any. -/
def dropAnyDigits : List Char → Bool × List Char
  | c :: rest => if isAsciiDigit c then dropDigits isAsciiDigit rest else (true, c :: rest)
  | [] => (true, [])

/-- Passes over a sign and digits. -/
def dropExponentDigits : List Char → Bool × List Char
  | '+' :: rest => dropSomeDigits isAsciiDigit rest
  | '-' :: rest => dropSomeDigits isAsciiDigit rest
  | text => dropSomeDigits isAsciiDigit text

/-- Passes over an exponent, if there is one. -/
def dropExponent : List Char → Bool × List Char
  | 'e' :: rest => dropExponentDigits rest
  | 'E' :: rest => dropExponentDigits rest
  | text => (true, text)

/-- Passes over what stands behind the point of a number. -/
def dropFraction (text : List Char) : Bool × List Char :=
  let (soundDigits, rest) := dropAnyDigits text
  let (soundExponent, rest) := dropExponent rest
  (soundDigits && soundExponent, rest)

/-- The digits of a number whose base is given by the letter behind its `0`. -/
def baseDigits? (c : Char) : Option (Char → Bool) :=
  if c == 'x' || c == 'X' then some fun c => (hexDigit? c).isSome
  else if c == 'o' || c == 'O' then some fun c => '0' ≤ c && c ≤ '7'
  else if c == 'b' || c == 'B' then some fun c => c == '0' || c == '1'
  else none

/-- Drops a number that starts with `0` and a digit. It is decimal if it has an `8` or `9`. -/
def dropOldNumber (text : List Char) : Bool × List Char :=
  let decimal := (text.takeWhile isAsciiDigit).any fun c => c == '8' || c == '9'
  match text.dropWhile isAsciiDigit with
  | '.' :: rest => if decimal then dropFraction rest else (true, '.' :: rest)
  | 'e' :: rest => if decimal then dropExponentDigits rest else (true, 'e' :: rest)
  | rest => (true, rest)

/-- Drops a decimal number that does not start with a point. -/
def dropDecimal (text : List Char) : Bool × List Char :=
  let (sound, rest) := dropDigits isAsciiDigit text
  match rest with
  | '.' :: rest =>
    let (soundFraction, rest) := dropFraction rest
    (sound && soundFraction, rest)
  | 'n' :: rest => (sound, rest)
  | rest =>
    let (soundExponent, rest) := dropExponent rest
    (sound && soundExponent, rest)

/-- The text behind a number, and whether the number is sound. -/
def dropNumber : List Char → Bool × List Char
  | '.' :: rest => dropFraction rest
  | '0' :: c :: rest =>
    match baseDigits? c with
    | some isDigit =>
      let (sound, rest) := dropSomeDigits isDigit rest
      match rest with
      | 'n' :: rest => (sound, rest)
      | rest => (sound, rest)
    | none =>
      if isAsciiDigit c then dropOldNumber (c :: rest)
      else if c == '_' then (true, c :: rest)
      else dropDecimal ('0' :: c :: rest)
  | text => dropDecimal text

/-- Whether a number starts here. -/
def startsNumeral : List Char → Bool
  | '.' :: c :: _ => isAsciiDigit c
  | c :: _ => isAsciiDigit c
  | [] => false

/-! ### Tokens -/

/-- The signs of the language, each before those that it starts with. -/
def marks : List String :=
  [">>>=", "...", "===", "!==", "**=", "<<=", ">>=", ">>>", "&&=", "||=", "??=", "=>", "==", "!=",
   "<=", ">=", "&&", "||", "??", "?.", "++", "--", "+=", "-=", "*=", "/=", "%=", "&=", "|=", "^=",
   "<<", ">>", "**", "\x7b", "\x7d", "(", ")", "[", "]", ";", ",", "<", ">", "+", "-", "*", "/",
   "%", "&", "|", "^", "!", "~", "?", ":", "=", ".", "@"]

/-- The sign that a text starts with. The point of a number is no part of a sign. -/
def mark? (text : List Char) : Option String :=
  match text with
  | '?' :: '.' :: c :: _ =>
    if isAsciiDigit c then some "?" else some "?."
  | _ => marks.find? fun mark => mark.toList.isPrefixOf text

/-- A token as it is read: what it is, the text behind it, whether it has escapes, and the lines of
its faults, the last one first. -/
structure Scanned where
  lexeme : Lexeme
  after : Tail
  escaped : Bool
  faults : List Nat

/-- A word. -/
def scanWord (line : Nat) (text : List Char) (lexeme : String → Lexeme) : Scanned :=
  let read := readName text
  ⟨lexeme (String.ofList read.name), ⟨read.rest, line⟩,
    (text.dropWhile isNamePart).head? == some '\\', if read.sound then [] else [line]⟩

/-- A string. -/
def scanString (line : Nat) (quote : Char) (text : List Char) : Scanned :=
  let found := stringEnd quote line [] text
  if found.closed then
    ⟨.text (String.ofList (text.takeWhile (· != quote))), found.after, false, found.faults⟩
  else ⟨.faulty, found.after, false, line :: found.faults⟩

/-- Reads a number. No name or digit can follow it. -/
def scanNumber (line : Nat) (text : List Char) : Scanned :=
  let (sound, rest) := dropNumber text
  let faults := if sound then [] else [line]
  if (rest.head?.map fun c => isNameStart c || isAsciiDigit c).getD false then
    ⟨.faulty, ⟨rest.dropWhile isNamePart, line⟩, false, line :: faults⟩
  else ⟨.number, ⟨rest, line⟩, false, faults⟩

/-- Reads the start of a template behind its quote. -/
def scanTemplate (line : Nat) (text : List Char) : Scanned :=
  match templatePart line true text with
  | some part => ⟨.template part.closed part.sound, part.after, false, []⟩
  | none => ⟨.faulty, ⟨[], line⟩, false, [line]⟩

/-- Whether a name starts here, also with an escape. -/
def startsName : List Char → Bool
  | c :: _ => isNameStart c || c == '\\'
  | [] => false

/-- Reads the token that a text starts with. -/
def scan (line : Nat) (text : List Char) : Scanned :=
  match text with
  | [] => ⟨.ending, ⟨[], line⟩, false, []⟩
  | c :: rest =>
    if startsName text then scanWord line text .word
    else if c = '"' || c = '\x27' then scanString line c rest
    else if startsNumeral text then scanNumber line text
    else if c = '\x60' then scanTemplate line rest
    else if c = '#' && startsName rest then scanWord line rest .privateName
    else
      match mark? text with
      | some mark => ⟨.mark mark, ⟨text.drop mark.length, line⟩, false, []⟩
      | none => ⟨.faulty, ⟨rest, line⟩, false, [line]⟩

/-- The first token of a text, and the lines of its faults, the last one first. -/
def Tail.token (tail : Tail) (broken : Bool) : Token × List Nat :=
  match skipSpace tail.line broken tail.rest with
  | .error start => (⟨.ending, start, broken, false, [], ⟨[], start⟩⟩, [start])
  | .ok gap =>
    let scanned := scan gap.line gap.text
    (⟨scanned.lexeme, gap.line, gap.broken, scanned.escaped, gap.text, scanned.after⟩,
      scanned.faults)

/-- The first token of a program, which counts as one on a new line, and the lines of its faults. A
first line that starts with `#!` is passed. -/
def Token.ofProgram : List Char → Token × List Nat
  | '#' :: '!' :: rest => Tail.token ⟨rest.dropWhile fun c => !isLineBreak c, 1⟩ true
  | text => Tail.token ⟨text, 1⟩ true

/-- The text behind a regular expression that starts at a token, and whether its flags are sound. -/
def Token.regexEnd (token : Token) : Option (Bool × Tail) :=
  (regexBody false (token.text.drop 1)).map fun rest =>
    (soundFlags (rest.takeWhile isFlagChar), ⟨rest.dropWhile isFlagChar, token.line⟩)

/-- The part of a template that starts behind a token. -/
def Token.templatePart (token : Token) : Option TemplatePart :=
  TypedScript.Target.templatePart token.after.line true token.after.rest

end TypedScript.Target
