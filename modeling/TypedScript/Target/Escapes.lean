/-
**Escapes.** A backslash in a name, string or template stands for a character together with what
follows it. A reader of escapes gives the text behind what it has used up, also if it is no escape.
-/

import TypedScript.Target.Names

namespace TypedScript.Target

open Text

/-! ### Hexadecimal digits -/

/-- Reads a given number of digits behind those that make `value`. -/
def hexDigits : Nat → Nat → List Char → Option Nat × List Char
  | 0, value, text => (some value, text)
  | _ + 1, _, [] => (none, [])
  | count + 1, value, c :: rest =>
    match hexDigit? c with
    | some digit => hexDigits count (16 * value + digit) rest
    | none => (none, c :: rest)

/-- Reads the digits behind those that make `value`, up to a closing brace. -/
def bracedDigits (value : Nat) : List Char → Option Nat × List Char
  | [] => (none, [])
  | c :: rest =>
    match hexDigit? c with
    | some digit =>
      if 16 * value + digit ≤ 0x10FFFF then bracedDigits (16 * value + digit) rest
      else (none, rest)
    | none => if c = '}' then (some value, rest) else (none, c :: rest)

/-! ### Characters -/

/-- What an escape with digits stands for. -/
inductive Escaped where
  | code (value : Nat)
  /-- Two escapes of which the first is a high surrogate. -/
  | pair
  deriving DecidableEq, Repr

/-- The first half of a surrogate pair. -/
def isHighSurrogate (code : Nat) : Bool :=
  0xD800 ≤ code && code ≤ 0xDBFF

/-- Reads what follows `\u`: digits between braces, or four digits. Four digits that are a high
surrogate are read together with the escape behind them. -/
def unicodeEscape : List Char → Option Escaped × List Char
  | '{' :: c :: rest =>
    match hexDigit? c with
    | some digit =>
      let (value?, rest) := bracedDigits digit rest
      (value?.map .code, rest)
    | none => (none, c :: rest)
  | text =>
    match hexDigits 4 0 text with
    | (none, rest) => (none, rest)
    | (some value, rest) =>
      match rest with
      | '\\' :: 'u' :: following =>
        if isHighSurrogate value then
          let (low?, rest) := hexDigits 4 0 following
          (low?.map fun _ => .pair, rest)
        else (some (.code value), rest)
      | _ => (some (.code value), rest)

/-- Whether a backslash and the character in front of a text are an escape of a string. Only escapes
with digits can fail to be one. -/
def isSoundEscape (c : Char) (text : List Char) : Bool :=
  if c = 'x' then (hexDigits 2 0 text).1.isSome
  else if c = 'u' then (unicodeEscape text).1.isSome
  else true

/-- Whether a digit behind a backslash is no escape in a template: only a `0` that no digit follows
is. -/
def isNumericEscape (c : Char) (text : List Char) : Bool :=
  isAsciiDigit c && (c != '0' || (text.head?.map isAsciiDigit).getD false)

/-! ### Names -/

/-- The character that an escape in a name stands for. -/
def Escaped.nameChar? (first : Bool) : Escaped → Option Char
  | .pair => none
  | .code value =>
    if value.isValidChar then
      let c := Char.ofNat value
      if if first then isNameStart c else isNamePart c then some c else none
    else none

/-- A name that was read. -/
structure NameText where
  /-- The name, without its escapes. -/
  name : List Char
  rest : List Char
  /-- Whether every backslash in it starts an escape. -/
  sound : Bool

/-- Reads the rest of a name from a backslash on. -/
def escapedName : Nat → Bool → List Char → NameText
  | steps + 1, first, '\\' :: 'u' :: text =>
    let (escaped?, rest) := unicodeEscape text
    let c? := escaped?.bind (Escaped.nameChar? first)
    let following := escapedName steps false (rest.dropWhile isNamePart)
    ⟨c?.toList ++ rest.takeWhile isNamePart ++ following.name, following.rest,
      c?.isSome && following.sound⟩
  | steps + 1, _, '\\' :: text =>
    let rest := text.drop 1
    let following := escapedName steps false (rest.dropWhile isNamePart)
    ⟨rest.takeWhile isNamePart ++ following.name, following.rest, false⟩
  | _, _, text => ⟨[], text, true⟩

/-- A name, which may have escapes in it. -/
def readName (text : List Char) : NameText :=
  let plain := text.takeWhile isNamePart
  match text.dropWhile isNamePart with
  | '\\' :: rest =>
    let following := escapedName (rest.length + 1) plain.isEmpty ('\\' :: rest)
    ⟨plain ++ following.name, following.rest, following.sound⟩
  | rest => ⟨plain, rest, true⟩

end TypedScript.Target
