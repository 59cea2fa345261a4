/-
**JSON text being read.** An `Input` is the text still ahead and the number of bytes before it. A
reader takes an input and gives a value with the input behind it, or a fault.

* `skipText`: the same without its value, which asks less of escapes.
-/

import TypedScript.Json.Fault
import TypedScript.Text.Alphabet

namespace TypedScript.Json

open Text

/-- A place in JSON text. -/
structure Input where
  /-- The characters still to be read. -/
  rest : List Char
  bytes : Nat
  deriving DecidableEq, Repr

/-- Reads a value off the input. -/
abbrev Reader (α : Type) := Input → Except Fault (α × Input)

namespace Input

/-- A text of which nothing is read. -/
def start (text : List Char) : Input :=
  ⟨text, 0⟩

/-- A fault at the bytes read so far. -/
def here (input : Input) (reason : Reason) : Fault :=
  ⟨reason, input.bytes⟩

/-- A fault one byte further, at a character that was seen but not read. -/
def ahead (input : Input) (reason : Reason) : Fault :=
  ⟨reason, if input.rest.isEmpty then input.bytes else input.bytes + 1⟩

/-- The input behind its first `count` characters, all of them ASCII. -/
def drop (input : Input) (count : Nat) : Input :=
  ⟨input.rest.drop count, input.bytes + count⟩

/-- Spaces, tabs, newlines and carriage returns. -/
def isSpace (c : Char) : Bool :=
  c == ' ' || c == '\n' || c == '\t' || c == '\r'

/-- Passes over white space. -/
def skipSpace (input : Input) : Input :=
  input.drop (input.rest.takeWhile isSpace).length

/-- Reads the letters of a word, which follow its first one. -/
def readWord : List Char → Input → Except Fault Input
  | [], input => .ok input
  | expected :: more, input =>
    match input.rest with
    | [] => .error (input.here .endInValue)
    | c :: _ =>
      if c = expected then readWord more (input.drop 1)
      else .error ⟨.expectedIdent, input.bytes + 1⟩

end Input

/-! ### String literals -/

/-- The length of a text in UTF-8. -/
def byteCount (text : List Char) : Nat :=
  text.foldl (fun total c => total + c.utf8Size) 0

/-- The number that four hexadecimal digits denote, read at a byte index. -/
def hexFour (text : List Char) (bytes : Nat) : Except Fault Nat :=
  match text with
  | a :: b :: c :: d :: _ =>
    match hexDigit? a, hexDigit? b, hexDigit? c, hexDigit? d with
    | some a, some b, some c, some d => .ok (((a * 16 + b) * 16 + c) * 16 + d)
    | _, _, _, _ => .error ⟨.invalidEscape, bytes + 4⟩
  | _ =>
    if 4 ≤ byteCount text then .error ⟨.invalidEscape, bytes + 4⟩
    else .error ⟨.endInText, bytes + byteCount text⟩

/-- The character of a one-letter escape. -/
def shortEscape? (c : Char) : Option Char :=
  if c = '"' then some '"'
  else if c = '\\' then some '\\'
  else if c = '/' then some '/'
  else if c = 'b' then some '\x08'
  else if c = 'f' then some '\x0c'
  else if c = 'n' then some '\n'
  else if c = 'r' then some '\r'
  else if c = 't' then some '\t'
  else none

/-- The second half of a surrogate pair, which starts with its own backslash. -/
def lowSurrogate (high : Nat) (text : List Char) (bytes : Nat) : Except Fault Char :=
  match text with
  | [] => .error ⟨.endInText, bytes⟩
  | '\\' :: [] => .error ⟨.endInText, bytes + 1⟩
  | '\\' :: 'u' :: digits => do
    let low ← hexFour digits (bytes + 2)
    if low < 0xDC00 || 0xDFFF < low then .error ⟨.loneSurrogate, bytes + 6⟩
    else .ok (Char.ofNat ((high - 0xD800) * 0x400 + (low - 0xDC00) + 0x10000))
  | '\\' :: _ :: _ => .error ⟨.unfinishedSurrogate, bytes + 2⟩
  | _ :: _ => .error ⟨.unfinishedSurrogate, bytes + 1⟩

/-- What an escape denotes, and how many characters it has behind its backslash. -/
def escape (text : List Char) (bytes : Nat) : Except Fault (Char × Nat) :=
  match text with
  | [] => .error ⟨.endInText, bytes⟩
  | 'u' :: digits => do
    let code ← hexFour digits (bytes + 1)
    if 0xDC00 ≤ code && code ≤ 0xDFFF then .error ⟨.loneSurrogate, bytes + 5⟩
    else if code < 0xD800 || 0xDBFF < code then .ok (Char.ofNat code, 5)
    else return (← lowSurrogate code (digits.drop 4) (bytes + 5), 11)
  | c :: _ =>
    match shortEscape? c with
    | some denoted => .ok (denoted, 1)
    | none => .error ⟨.invalidEscape, bytes + 1⟩

/-- Reads a string literal from behind its opening quote. The first `skip` characters belong to an
escape that has been read already. -/
def readTextFrom : Nat → List Char → Nat → Except Fault (List Char × Input)
  | _, [], bytes => .error ⟨.endInText, bytes⟩
  | skip + 1, _ :: rest, bytes => readTextFrom skip rest (bytes + 1)
  | 0, c :: rest, bytes =>
    if c = '"' then .ok ([], ⟨rest, bytes + 1⟩)
    else if c = '\\' then do
      let (denoted, length) ← escape rest (bytes + 1)
      let (more, input) ← readTextFrom length rest (bytes + 1)
      return (denoted :: more, input)
    else if c.toNat < 32 then .error ⟨.controlCharacter, bytes + 1⟩
    else do
      let (more, input) ← readTextFrom 0 rest (bytes + c.utf8Size)
      return (c :: more, input)

/-- Reads a string literal from behind its opening quote. -/
def readText : Reader String := fun input => do
  let (content, input) ← readTextFrom 0 input.rest input.bytes
  return (String.ofList content, input)

/-- How many characters an escape has behind its backslash, without asking what it denotes. -/
def escapeLength (text : List Char) (bytes : Nat) : Except Fault Nat :=
  match text with
  | [] => .error ⟨.endInText, bytes⟩
  | 'u' :: digits => do
    let _ ← hexFour digits (bytes + 1)
    return 5
  | c :: _ => if (shortEscape? c).isSome then .ok 1 else .error ⟨.invalidEscape, bytes + 1⟩

/-- Passes over a string literal from behind its opening quote. -/
def skipTextFrom : Nat → List Char → Nat → Except Fault Input
  | _, [], bytes => .error ⟨.endInText, bytes⟩
  | skip + 1, _ :: rest, bytes => skipTextFrom skip rest (bytes + 1)
  | 0, c :: rest, bytes =>
    if c = '"' then .ok ⟨rest, bytes + 1⟩
    else if c = '\\' then do
      let length ← escapeLength rest (bytes + 1)
      skipTextFrom length rest (bytes + 1)
    else if c.toNat < 32 then .error ⟨.controlCharacter, bytes⟩
    else skipTextFrom 0 rest (bytes + c.utf8Size)

end TypedScript.Json
