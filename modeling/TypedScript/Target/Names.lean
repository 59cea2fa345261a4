/-
**Names in generated programs.** The characters that names consist of there: letters, letter
numerals, `$` and `_` anywhere, and digits and combining marks behind the first one. The tables
hold what the Unicode Character Database, version 17, adds beyond ASCII.
-/

import TypedScript.Text.Alphabet
import TypedScript.Text.Blank

namespace TypedScript.Target

open Text

/-- Characters that start a name and are no letters. -/
def nameStartRuns : List Nat :=
  [5870,3,404,2,2193,1,21,1,49,35,2,4,3710,1,25,9,14,3,96,2,30281,10,23120,53,460,1,8,1,134,5,8234,
   111,19333,3]

/-- Characters that names have only behind the first one, in runs that may hold others of names. -/
def namePartRuns : List Nat :=
  [183,1,584,112,23,1,251,5,265,45,1,1,1,2,1,2,1,1,72,11,48,31,6,1,101,7,2,10,1,16,23,58,91,11,15,
   52,9,1,24,24,43,3,59,75,1,129,2,10,17,3,56,9,2,2,2,3,9,1,10,2,2,10,14,1,2,3,56,1,1,5,4,2,2,3,3,1,
   20,16,11,3,56,10,1,3,1,3,20,2,2,10,10,6,1,3,56,9,2,2,2,3,7,3,10,2,2,10,18,1,59,5,3,3,1,4,9,1,14,
   10,16,5,55,9,1,3,1,4,7,2,11,2,2,10,17,3,56,9,1,3,1,4,7,2,11,2,2,10,3,1,12,4,55,10,1,3,1,4,9,1,10,
   2,2,10,17,3,70,1,4,6,1,1,1,8,6,10,2,2,61,10,12,8,1,10,87,12,11,7,1,10,62,2,6,10,11,1,1,1,1,1,4,2,
   49,20,1,18,1,36,9,1,100,31,12,72,703,3,9,9,928,4,28,3,29,2,30,2,64,32,9,1,2,10,33,3,1,11,143,1,
   118,12,4,12,10,10,128,11,60,5,57,10,1,29,2,11,6,10,22,14,1,31,2,12,20,69,11,10,17,9,12,116,48,20,
   8,10,6,10,118,3,1,38,198,64,524,2,49,2,19,1,123,13,4,1,3,12,3070,3,141,1,96,32,554,6,105,2,96,1,
   29988,10,69,1,4,10,32,84,272,38,4,1,83,70,10,10,6,18,13,47,25,13,44,65,15,10,11,21,47,14,12,11,2,
   10,33,71,41,5,5,2,236,8,1,2,2,10,20260,1,737,16,16,16,3,2,24,3,192,10,37,1,37,1,663,1,226,1,149,
   5,293,10,1367,3,1,2,5,4,40,3,4,1,165,2,573,4,8,10,6,10,31,5,317,2,77,6,70,11,49,4,122,71,31,15,
   10,60,7,1,45,10,6,53,1,10,5,2,44,1,12,65,8,4,1,12,82,12,6,4,157,12,5,10,6,4,55,10,2,2,2,3,9,1,10,
   2,2,7,3,5,67,9,1,1,2,1,1,4,1,7,14,2,82,18,9,10,4,1,81,20,12,10,213,7,2,9,27,2,82,17,15,10,81,13,
   8,10,6,20,57,15,4,10,242,15,165,10,70,6,1,2,2,9,12,10,119,7,2,7,3,1,28,62,8,1,9,73,198,8,136,10,
   53,8,1,8,16,10,56,22,1,14,122,6,3,1,1,2,1,9,8,10,48,5,1,2,1,5,8,10,54,10,265,4,9,4,48,7,3,5,13,
   11,5349,22,11464,28,2342,10,86,10,38,5,59,7,25,10,534,10,469,57,7,4,81,1,11,2,19627,2,4177,10,
   518,46,2,23,542,5,3,6,8,8,2,7,30,4,148,3,1417,50,512,55,4,50,8,1,14,1,22,5,1,15,1360,7,1,17,2,7,
   1,2,1,5,100,1,160,7,9,10,356,1,61,14,498,14,244,13,232,19,474,7,109,7,5,10,4758,10,787718,240]

/-- Whether a name can start with the character. The vertical tilde is a letter that names do not
have. -/
def isNameStart (c : Char) : Bool :=
  if c.toNat < 128 then isAsciiLetter c || c == '$' || c == '_'
  else (isLetter c && c != '\u2E2F') || inRuns nameStartRuns c.toNat

/-- Whether a name can have the character behind the first one. Two joiners without width count. -/
def isNamePart (c : Char) : Bool :=
  if c.toNat < 128 then isNameStart c || isAsciiDigit c
  else isNameStart c || inRuns namePartRuns c.toNat || c == '\u200C' || c == '\u200D'

/-- Whether the character is space between tokens: blanks, the byte order mark and the space without
width. -/
def isSpace (c : Char) : Bool :=
  isBlank c || c == '\uFEFF' || c == '\u200B'

/-- The characters that end a line. -/
def isLineBreak (c : Char) : Bool :=
  c == '\n' || c == '\r' || c == '\u2028' || c == '\u2029'

/-- The words that are never names. -/
def reservedWords : List String :=
  ["break", "case", "catch", "class", "const", "continue", "debugger", "default", "delete", "do",
   "else", "enum", "export", "extends", "false", "finally", "for", "function", "if", "import",
   "in", "instanceof", "new", "null", "return", "super", "switch", "this", "throw", "true", "try",
   "typeof", "var", "void", "while", "with"]

/-- Which words are names. -/
def isName (word : String) : Bool :=
  !reservedWords.contains word

end TypedScript.Target
