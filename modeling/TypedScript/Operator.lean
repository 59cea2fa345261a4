/-
**Operators.** The comparison, arithmetic, logical and assignment operators of scripts.
-/

namespace TypedScript

/-- The operators of scripts. -/
inductive Operator where
  | equals
  | notEquals
  | lessEquals
  | greaterEquals
  | less
  | greater
  | addAssign
  | subAssign
  | mulAssign
  | divAssign
  | add
  | sub
  | mul
  | div
  | mod
  | assign
  | not
  | or
  | and
  deriving DecidableEq, Repr

namespace Operator

/-- All operators, a longer one before one it starts with. -/
def all : List Operator :=
  [.equals, .notEquals, .lessEquals, .greaterEquals, .less, .greater, .addAssign, .subAssign,
   .mulAssign, .divAssign, .add, .sub, .mul, .div, .mod, .assign, .not, .or, .and]

/-- How the operator is written in a script. -/
def spelling : Operator → String
  | .equals => "=="
  | .notEquals => "!="
  | .lessEquals => "<="
  | .greaterEquals => ">="
  | .less => "<"
  | .greater => ">"
  | .addAssign => "+="
  | .subAssign => "-="
  | .mulAssign => "*="
  | .divAssign => "/="
  | .add => "+"
  | .sub => "-"
  | .mul => "*"
  | .div => "/"
  | .mod => "%"
  | .assign => "="
  | .not => "!"
  | .or => "||"
  | .and => "&&"

/-- The number of characters of the spelling. -/
def length (op : Operator) : Nat :=
  op.spelling.length

/-- The operator of a spelling. -/
def ofSpelling? (text : String) : Option Operator :=
  all.find? fun op => op.spelling == text

/-- The longest operator a text starts with. -/
def longestAt? : List Char → Option Operator
  | '=' :: '=' :: _ => some .equals
  | '!' :: '=' :: _ => some .notEquals
  | '<' :: '=' :: _ => some .lessEquals
  | '>' :: '=' :: _ => some .greaterEquals
  | '+' :: '=' :: _ => some .addAssign
  | '-' :: '=' :: _ => some .subAssign
  | '*' :: '=' :: _ => some .mulAssign
  | '/' :: '=' :: _ => some .divAssign
  | '|' :: '|' :: _ => some .or
  | '&' :: '&' :: _ => some .and
  | '<' :: _ => some .less
  | '>' :: _ => some .greater
  | '+' :: _ => some .add
  | '-' :: _ => some .sub
  | '*' :: _ => some .mul
  | '/' :: _ => some .div
  | '%' :: _ => some .mod
  | '=' :: _ => some .assign
  | '!' :: _ => some .not
  | _ => none

/-- Operators that stand between the target and the value of an assignment. -/
def isAssignment : Operator → Bool
  | .assign | .addAssign | .subAssign | .mulAssign | .divAssign => true
  | _ => false

/-- Operators that may stand in front of an operand. -/
def isUnary : Operator → Bool
  | .not | .sub => true
  | _ => false

/-- The operation that a compound assignment does. -/
def compoundBase? : Operator → Option Operator
  | .addAssign => some .add
  | .subAssign => some .sub
  | .mulAssign => some .mul
  | .divAssign => some .div
  | _ => none

/-- How the operator is written in generated code. -/
def target : Operator → String
  | .equals => "==="
  | .notEquals => "!=="
  | op => op.spelling

end Operator

end TypedScript
