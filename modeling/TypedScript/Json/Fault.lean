/-
**What can be wrong with JSON text.** A fault is a reason and the number of bytes of the text up to
which it was read. Its message gives the place as a line and a column, both counted from that byte
index: the line is one more than the newlines before it, and the column is the number of bytes
since the last of them.
-/

namespace TypedScript.Json

/-- Why a text is no JSON value, or not the value that was asked for. -/
inductive Reason where
  | endInValue
  | endInList
  | endInObject
  | endInText
  | expectedValue
  | expectedIdent
  | expectedColon
  | expectedListEnd
  | expectedObjectEnd
  | keyNotText
  | trailingComma
  | trailingCharacters
  | invalidNumber
  | outOfRange
  | controlCharacter
  | invalidEscape
  | unfinishedSurrogate
  | loneSurrogate
  | tooDeep
  /-- A value of another kind than the one that was asked for. -/
  | wrongKind (found wanted : String)
  | missingField (field : String)
  | duplicateField (field : String)
  /-- A record written as a list with too few items. -/
  | tooShort (length : Nat) (wanted : String)
  deriving DecidableEq, Repr

/-- The text of a reason. -/
def Reason.message : Reason → String
  | .endInValue => "EOF while parsing a value"
  | .endInList => "EOF while parsing a list"
  | .endInObject => "EOF while parsing an object"
  | .endInText => "EOF while parsing a string"
  | .expectedValue => "expected value"
  | .expectedIdent => "expected ident"
  | .expectedColon => "expected `:`"
  | .expectedListEnd => "expected `,` or `]`"
  | .expectedObjectEnd => "expected `,` or `\x7d`"
  | .keyNotText => "key must be a string"
  | .trailingComma => "trailing comma"
  | .trailingCharacters => "trailing characters"
  | .invalidNumber => "invalid number"
  | .outOfRange => "number out of range"
  | .controlCharacter => "control character (\\u0000-\\u001F) found while parsing a string"
  | .invalidEscape => "invalid escape"
  | .unfinishedSurrogate => "unexpected end of hex escape"
  | .loneSurrogate => "lone leading surrogate in hex escape"
  | .tooDeep => "recursion limit exceeded"
  | .wrongKind found wanted => "invalid type: " ++ found ++ ", expected " ++ wanted
  | .missingField field => "missing field `" ++ field ++ "`"
  | .duplicateField field => "duplicate field `" ++ field ++ "`"
  | .tooShort length wanted =>
    "invalid length " ++ toString length ++ ", expected " ++ wanted

/-- A reason and the number of bytes read when it was found. -/
structure Fault where
  reason : Reason
  bytes : Nat
  deriving DecidableEq, Repr

/-- The line and column behind the first `bytes` bytes of a text, counting on from a given line and
column. -/
def place : List Char → Nat → Nat → Nat → Nat × Nat
  | [], _, line, column => (line, column)
  | c :: rest, bytes, line, column =>
    if bytes = 0 then (line, column)
    else if c = '\n' then place rest (bytes - 1) (line + 1) 0
    else place rest (bytes - c.utf8Size) line (column + min bytes c.utf8Size)

/-- A reason with the place it was found at. -/
def Fault.message (text : List Char) (fault : Fault) : String :=
  let (line, column) := place text fault.bytes 1 0
  fault.reason.message ++ " at line " ++ toString line ++ " column " ++ toString column

end TypedScript.Json
