/-
**Letters and numerals.** Three classes of characters, each the ASCII members plus a table of
runs of code points of the Unicode Character Database, version 17.
-/

namespace TypedScript.Text

/-- Whether a code point lies in a class that is given by its runs: the number of code points up to
its first member, that of the members which follow each other, and so on in turn. -/
def inRuns : List Nat → Nat → Bool
  | outside :: inside :: rest, code =>
    if code < outside then false
    else if code < outside + inside then true
    else inRuns rest (code - (outside + inside))
  | _, _ => false

/-- The letters of ASCII. -/
def isAsciiLetter (c : Char) : Bool :=
  ('a' ≤ c && c ≤ 'z') || ('A' ≤ c && c ≤ 'Z')

/-- The digits of ASCII. -/
def isAsciiDigit (c : Char) : Bool :=
  '0' ≤ c && c ≤ '9'

/-- The value of a hexadecimal digit. -/
def hexDigit? (c : Char) : Option Nat :=
  if isAsciiDigit c then some (c.toNat - '0'.toNat)
  else if 'a' ≤ c && c ≤ 'f' then some (c.toNat - 'a'.toNat + 10)
  else if 'A' ≤ c && c ≤ 'F' then some (c.toNat - 'A'.toNat + 10)
  else none

/-! ### Runs beyond ASCII -/

/-- The general categories Lu, Ll, Lt, Lm and Lo beyond ASCII. -/
def letterRuns : List Nat :=
  [170,1,10,1,4,1,5,23,1,31,1,458,4,12,14,5,7,1,1,1,129,5,1,2,2,4,1,1,6,1,1,3,1,1,1,20,1,83,1,139,8,
   166,1,38,2,1,6,41,71,27,4,4,45,43,35,2,1,99,1,1,15,2,7,2,10,3,2,1,16,1,1,30,29,89,11,1,24,33,9,2,
   4,1,5,22,4,1,9,1,3,1,23,25,7,11,5,24,1,7,16,42,58,54,3,1,18,1,7,10,15,16,4,8,2,2,2,22,1,7,1,1,3,
   4,3,1,16,1,13,2,1,3,14,2,10,1,8,6,4,2,2,22,1,7,1,2,1,2,1,2,31,4,1,1,19,3,16,9,1,3,1,22,1,7,1,2,1,
   5,3,1,18,1,15,2,23,1,11,8,2,2,2,22,1,7,1,2,1,5,3,1,30,2,1,3,15,1,17,1,1,6,3,3,1,4,3,2,1,1,1,2,3,
   2,3,3,3,12,22,1,52,8,1,3,1,23,1,16,3,1,26,3,1,2,2,2,30,1,4,8,1,3,1,23,1,10,1,5,3,1,30,3,1,2,15,2,
   17,9,1,3,1,41,2,1,16,1,5,3,8,3,24,6,5,18,3,24,1,9,1,1,2,7,58,48,1,2,12,7,58,2,1,1,1,5,1,24,1,1,1,
   10,1,2,9,1,2,5,1,1,21,4,32,1,63,8,1,36,27,5,115,43,20,1,16,6,4,4,3,1,3,2,7,3,4,13,12,1,17,38,1,1,
   5,1,2,43,1,333,1,4,2,7,1,1,1,4,2,41,1,4,2,33,1,4,2,7,1,1,1,4,2,15,1,57,1,4,2,67,37,16,16,86,2,6,
   3,620,2,17,1,26,5,75,6,8,7,18,13,19,14,18,14,13,1,3,15,52,35,1,4,1,67,89,7,5,2,34,1,1,5,70,10,31,
   49,30,2,5,11,44,4,26,54,23,9,53,82,1,93,47,17,8,54,30,13,2,10,44,26,36,41,3,10,36,2,11,5,43,2,3,
   41,4,1,6,1,2,3,1,5,192,64,278,2,6,2,38,2,6,2,8,1,1,1,1,1,1,1,31,2,53,1,7,1,1,3,3,1,7,3,4,2,6,4,
   13,5,3,1,7,116,1,13,1,16,13,101,1,4,1,2,10,1,1,3,5,6,1,1,1,1,1,1,4,1,11,2,4,5,5,4,1,52,2,2683,
   229,6,4,3,2,12,38,1,1,5,1,2,56,7,1,16,23,9,7,1,7,1,7,1,7,1,7,1,7,1,7,1,7,80,1,469,2,42,5,5,2,4,
   86,6,3,1,90,1,4,5,43,1,94,17,32,48,16,512,6592,64,22157,67,46,2,269,3,16,10,2,20,47,16,31,2,70,
   49,9,2,103,2,82,20,17,1,3,1,4,1,23,29,52,14,50,62,6,3,1,1,2,11,28,10,23,25,29,7,47,28,1,16,5,1,
   10,10,5,1,41,23,3,1,8,20,23,3,1,3,50,1,1,3,2,2,5,2,1,1,1,24,3,2,11,7,3,12,6,2,6,2,6,9,7,1,7,1,43,
   1,14,6,115,29,11172,12,23,4,49,8452,366,2,106,38,7,12,5,5,1,1,10,1,13,1,5,1,1,1,2,1,2,1,108,33,
   363,18,64,2,54,40,12,116,5,1,135,36,26,6,26,11,89,3,6,2,6,2,6,2,3,35,12,1,26,1,19,1,2,1,15,2,14,
   34,123,389,29,3,49,47,32,13,20,1,8,6,38,10,30,2,36,4,8,48,158,18,36,4,36,4,40,8,52,12,11,1,15,1,
   7,1,2,1,11,1,15,1,7,1,2,3,52,12,311,9,22,10,8,24,6,1,42,1,9,69,6,2,1,1,44,1,2,3,1,2,23,10,23,9,
   31,65,19,1,2,10,22,10,26,6,26,38,56,6,2,64,1,15,4,1,3,1,29,42,29,3,29,35,8,1,28,27,54,10,22,10,
   19,13,18,110,73,55,51,13,51,13,36,38,28,9,23,250,42,6,2,16,6,56,29,10,1,8,22,42,18,46,21,27,23,
   12,53,57,2,2,1,13,45,32,25,26,36,29,1,2,1,8,35,3,1,12,48,14,4,21,1,1,1,35,18,1,25,19,2,63,7,1,1,
   1,4,1,15,1,10,7,47,38,8,2,2,2,22,1,7,1,2,1,5,3,1,18,1,12,5,30,10,1,1,2,1,1,38,1,1,25,1,1,1,44,53,
   18,4,20,3,30,48,20,2,1,1,184,47,41,4,36,48,20,1,59,43,13,1,71,27,37,7,185,44,116,64,31,8,2,1,2,8,
   1,2,1,24,15,1,1,1,94,8,2,39,16,1,1,1,28,1,10,40,7,1,21,1,11,46,19,1,18,73,199,33,31,9,1,37,17,1,
   49,30,112,7,1,2,1,38,21,1,25,6,1,2,1,32,14,1,23,44,260,19,15,1,1,13,1,34,124,1,79,922,230,196,
   2636,97,15,1072,17,6,25,3995,5,583,6841,30,1762,569,7,31,17,79,17,30,18,48,16,4,31,21,5,19,432,
   45,211,64,32,25,2,25,44,75,5,1,66,13,64,2,1,1,14,2,12,7382,41,32,97,115,8701,4,1,7,1,2,1,291,15,
   1,29,3,2,1,14,4,8,396,2308,107,5,13,3,9,7,10,5990,85,1,71,1,2,2,1,2,2,2,4,1,12,1,1,1,7,1,65,1,4,
   2,8,1,7,1,28,1,4,1,5,1,1,3,7,1,340,2,25,1,25,1,31,1,25,1,31,1,25,1,31,1,25,1,31,1,25,1,8,1844,31,
   6,6,261,62,146,45,10,7,16,1,321,30,18,44,484,28,228,30,2,1,207,31,1,3,1,2,1,7,2,5,9,2,224,7,1,4,
   1,2,1,15,1,197,59,68,7,1,1204,4,1,27,1,2,1,1,2,1,1,10,1,4,1,1,1,1,6,1,4,1,1,1,1,1,1,3,1,2,1,1,2,
   1,1,1,1,1,1,1,1,1,1,2,1,1,2,4,1,7,1,4,1,4,1,1,1,10,1,17,5,3,1,5,1,17,4420,42720,32,4382,2,5774,2,
   7473,15,622,2466,542,1506,4939,5,8490]

/-- The characters beyond ASCII that are alphabetic and no letters, in runs that may hold letters. -/
def letterLikeRuns : List Nat :=
  [837,1,29,13,576,14,1,1,1,2,1,2,1,1,72,11,48,13,1,7,16,1,101,7,4,8,4,1,35,47,102,11,101,2,3,18,
   106,1,60,12,3,7,6,76,2,15,1,2,5,15,29,3,58,7,2,2,2,2,10,1,10,2,29,3,58,5,4,2,2,2,4,1,30,6,11,3,
   58,8,1,3,1,2,21,2,22,3,4,3,58,7,2,2,2,2,9,2,10,2,30,1,59,5,3,3,1,3,10,1,40,5,57,7,1,3,1,3,8,2,11,
   2,29,3,58,7,1,3,1,3,8,2,11,2,15,1,12,4,58,7,1,3,1,3,10,1,10,2,29,3,75,6,1,1,1,8,18,2,61,10,18,1,
   99,9,1,2,16,1,163,19,9,11,1,36,110,12,1,1,2,4,23,58,10,4,1616,3,33,2,30,2,30,2,30,2,66,19,188,37,
   118,12,4,9,222,5,57,10,2,20,74,2,11,3,49,5,48,15,60,42,2,2,57,11,50,19,412,34,875,41,813,52,2294,
   32,519,1,25,9,14,3,30265,8,34,82,274,1,8,29,88,68,1,1,57,1,38,5,28,12,45,4,48,12,37,1,67,14,12,
   11,45,68,44,5,5,1,237,8,20275,1,1569,53,460,10,43,5,86,5,1579,3,1,2,5,4,788,4,65,1,321,2,77,3,
   259,70,45,2,11,57,9,1,61,51,18,2,57,64,14,2,92,9,2,1,6,4,157,10,23,4,58,7,2,2,2,2,10,1,10,2,84,9,
   1,1,2,1,1,4,1,2,103,13,1,3,106,18,237,7,2,7,29,2,82,15,1,1,106,11,103,14,257,13,247,6,1,2,2,2,3,
   3,142,7,2,6,4,1,28,10,42,10,18,71,200,8,199,8,1,7,83,22,1,14,122,6,3,1,1,2,1,3,1,1,3,1,66,5,1,2,
   1,4,348,4,9,4,48,7,3,3,1215,111,15535,17,3616,57,7,4,93,7,19623,1,9057,7,1,17,2,7,1,2,1,5,100,1,
   1619,19,593,1,2024,26,6,26,6,26]

/-- The general categories Nd, Nl and No beyond ASCII. -/
def numeralRuns : List Nat :=
  [178,2,5,1,2,3,1441,10,134,10,198,10,412,10,118,10,4,6,108,10,118,10,118,10,2,6,110,13,115,10,8,7,
   103,10,104,7,7,19,109,10,96,10,118,10,70,20,268,10,70,10,719,20,881,3,239,10,6,10,22,10,300,10,
   128,11,165,10,6,10,182,10,86,10,134,10,6,10,1046,1,3,6,6,10,198,51,2,5,726,60,78,22,630,30,1385,
   1,777,1,25,9,14,3,343,4,138,10,30,8,1,15,32,10,39,15,29536,10,188,10,320,6,154,10,38,10,198,10,
   22,10,86,10,406,10,21270,10,493,45,12,57,17,2,341,27,36,4,29,1,8,1,134,5,202,10,942,8,25,7,39,9,
   75,5,22,6,160,2,2,16,2,46,64,9,52,2,30,3,75,5,104,8,24,8,41,7,330,6,48,10,6,10,278,31,158,10,42,
   4,112,7,134,30,128,10,60,10,144,10,7,20,251,10,342,10,118,10,374,10,102,10,6,20,76,12,420,19,93,
   10,662,10,86,29,227,10,70,10,54,10,358,10,102,21,1067,111,15553,10,2342,10,86,10,134,10,1,7,526,
   10,262,23,349,3,23801,10,1478,20,12,20,108,25,1109,50,2368,10,422,10,502,10,247,10,716,9,128,10,
   791,59,1,3,1,4,76,45,1,15,962,13,2787,10]

/-! ### The classes -/

/-- The general categories whose name starts with L. -/
def isLetter (c : Char) : Bool :=
  if c.toNat < 128 then isAsciiLetter c else inRuns letterRuns c.toNat

/-- The derived property Alphabetic. Besides letters it holds letter-like numerals such as `Ⅷ` and
circled letters such as `ⓐ`. -/
def isAlphabetic (c : Char) : Bool :=
  if c.toNat < 128 then isAsciiLetter c
  else inRuns letterRuns c.toNat || inRuns letterLikeRuns c.toNat

/-- The general categories Nd, Nl and No, so `²` and `٣` are numerals too. -/
def isNumeral (c : Char) : Bool :=
  if c.toNat < 128 then isAsciiDigit c else inRuns numeralRuns c.toNat

/-- The characters of identifiers and type names. -/
def isWordChar (c : Char) : Bool :=
  isAlphabetic c || isNumeral c || c == '_'

/-- The letters and numerals that version 17 of the database adds to version 16. -/
def newestRuns : List Nat :=
  [2191,1,972,1,127,1,39665,2,2,1,1,1,28,1,24910,26,1387,3,3816,44,4,10,20662,25,2,25,286,5,6145,8,
   1289,22,97,115,22733,31,1,3,1,2,1,7,2,5,9,2,53306,6,5986,12,21762,4298]

/-- Letters and numerals that version 16 of the database does not have. -/
def isNewest (c : Char) : Bool :=
  inRuns newestRuns c.toNat

/-- A word that starts with an alphabetic character or an underscore. -/
def isIdentifier : List Char → Bool
  | [] => false
  | first :: rest => (isAlphabetic first || first == '_') && rest.all isWordChar

/-- The word a text starts with, empty if it starts with anything else. -/
def leadingWord (text : List Char) : List Char :=
  text.takeWhile isWordChar

end TypedScript.Text
