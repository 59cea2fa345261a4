/-
**What scripts are translated to.** The code of a script, said without types and declarations: every
part of a script has its code, operations nest from left to right, an operator in front of an
operand belongs to that operand alone, and a block has one statement for each of its statements that
is no import.

* `TokenCode`, `OperandCode`, `TokensCode`: code of operands and expressions.
* `StepsCode`, `CallCode`, `ArgumentsCode`: code of accesses and calls.
* `KindCode`, `OtherwiseCode`, `BlockCode`: code of statements and blocks.
-/

import Mathlib.Data.List.Forall2
import TypedScript.Generation.Statements

namespace TypedScript

/-- Whether a statement is an import, which has no code in its block. -/
def Kind.isImport : Kind → Bool
  | .imports _ => true
  | _ => false

def codedKinds (block : List Stmt) : List Kind :=
  (block.map Stmt.kind).filter fun kind => !kind.isImport

mutual

/-- The code of a value. -/
inductive TokenCode : Token → Target.Expr → Prop
  | number (value : Binary64) : TokenCode (.number value) (.number value)
  | text (value : String) : TokenCode (.text value) (.text value)
  | bool (value : Bool) : TokenCode (.bool value) (.bool value)
  | null : TokenCode .null .null
  | object (literal : Literal) : TokenCode (.object literal) (.object literal.value)
  | array (literal : Literal) : TokenCode (.array literal) (.array literal.value)
  | group (inner : TokensCode tokens code) : TokenCode (.group tokens) (.group code)
  | access (taken : StepsCode (.name base) steps code) : TokenCode (.access base steps) code
  | call (called : CallCode base steps arguments code) : TokenCode (.call base steps arguments) code
  | lambda (block : BlockCode body code) :
      TokenCode (.lambda params body) (.arrow (awaits body) (params.map Param.name) code)
  | await (awaited : TokenCode operand code) : TokenCode (.await operand) (.await code)

/-- That of an operand. -/
inductive OperandCode : List Token → Target.Expr → Prop
  | value (single : TokenCode token code) : OperandCode [token] code
  | unary (isUnary : op.isUnary = true) (operand : OperandCode tokens code) :
      OperandCode (.operator op :: tokens) (unaryCode op code)

/-- Code of an expression: what stands left of its last operation is an operand of that
operation. -/
inductive TokensCode : List Token → Target.Expr → Prop
  | operand (operand : OperandCode tokens code) : TokensCode tokens code
  | binary (front : TokensCode left leftCode) (joins : op.joinsOperands = true)
      (operand : OperandCode right rightCode) :
      TokensCode (left ++ .operator op :: right) (.binary op leftCode rightCode)

/-- That of steps behind a receiver. -/
inductive StepsCode : Target.Expr → List Step → Target.Expr → Prop
  | nil (receiver : Target.Expr) : StepsCode receiver [] receiver
  | property (taken : StepsCode (.member receiver name) rest code) :
      StepsCode receiver (.property name :: rest) code
  | index (inner : TokensCode tokens index) (taken : StepsCode (.index receiver index) rest code) :
      StepsCode receiver (.index tokens :: rest) code

/-- Code of a call. A helper takes the receiver of its method as the first argument. -/
inductive CallCode : String → List Step → List (List Token) → Target.Expr → Prop
  | callee (taken : StepsCode (.name base) steps code) (values : ArgumentsCode arguments codes) :
      CallCode base steps arguments (.call code codes)
  | helper {base name : String} {steps : List Step} {arguments : List (List Token)}
      {receiver : Target.Expr} {codes : List Target.Expr} {helper : Helper}
      (taken : StepsCode (.name base) steps receiver) (named : helper.name = "__hsc_" ++ name)
      (values : ArgumentsCode arguments codes) :
      CallCode base (steps ++ [.property name]) arguments
        (.call (.name helper.name) (receiver :: codes))

/-- That of arguments. -/
inductive ArgumentsCode : List (List Token) → List Target.Expr → Prop
  | nil : ArgumentsCode [] []
  | cons (first : TokensCode argument code) (others : ArgumentsCode rest codes) :
      ArgumentsCode (argument :: rest) (code :: codes)

/-- That of a statement. -/
inductive KindCode : Kind → Target.Stmt → Prop
  | declare (inner : TokensCode value code) :
      KindCode (.declare name type value constant) (.declare constant name (type.truncate code))
  | modify (taken : StepsCode (.name base) steps target) (inner : TokensCode value code) :
      KindCode (.modify base steps op value) (assignmentCode integer op target code)
  | expression (inner : TokensCode tokens code) : KindCode (.expression tokens) (.evaluate code)
  | call (called : CallCode base steps arguments code) :
      KindCode (.call base steps arguments) (.evaluate code)
  | function (block : BlockCode body code) :
      KindCode (.function name params returns body)
        (.function (awaits body) name (params.map Param.name) code)
  | branch (tested : TokensCode condition test) (block : BlockCode body code)
      (rest : OtherwiseCode otherwise alternative) :
      KindCode (.branch condition body otherwise) (.branch test code alternative)
  | loop (tested : TokensCode condition test) (block : BlockCode body code) :
      KindCode (.loop condition body) (.loop test code)
  | returnsNothing : KindCode (.returns none) (.returns none)
  | returnsValue {tokens : List Token} {type : Ty} {code : Target.Expr}
      (inner : TokensCode tokens code) :
      KindCode (.returns (some tokens)) (.returns (some (type.truncate code)))

/-- Code of the other side of a branch. -/
inductive OtherwiseCode : Otherwise → Target.Alternative → Prop
  | nothing : OtherwiseCode .nothing .nothing
  | block (block : BlockCode body code) : OtherwiseCode (.block body) (.block code)
  | elseIf (tested : TokensCode condition test) (block : BlockCode body code)
      (rest : OtherwiseCode otherwise alternative) :
      OtherwiseCode (.elseIf line condition body otherwise) (.elseIf test code alternative)

/-- That of a block. -/
inductive BlockCode : List Stmt → List Target.Stmt → Prop
  | intro (statements : List.Forall₂ KindCode (codedKinds block) code) : BlockCode block code

end

namespace BlockCode

variable {stmt : Stmt} {rest : List Stmt} {codes : List Target.Stmt}

theorem cons {code : Target.Stmt} (one : KindCode stmt.kind code) (behind : BlockCode rest codes) :
    BlockCode (stmt :: rest) (code :: codes) := by
  have coded : codedKinds (stmt :: rest) = stmt.kind :: codedKinds rest := by
    unfold codedKinds
    rw [List.map_cons]
    generalize stmt.kind = kind at one
    cases one <;> rfl
  obtain ⟨statements⟩ := behind
  exact ⟨coded ▸ .cons one statements⟩

theorem behindImport (isImport : stmt.kind.isImport = true) (behind : BlockCode rest codes) :
    BlockCode (stmt :: rest) codes := by
  have coded : codedKinds (stmt :: rest) = codedKinds rest := by simp [codedKinds, isImport]
  obtain ⟨statements⟩ := behind
  exact ⟨coded ▸ statements⟩

end BlockCode

end TypedScript
