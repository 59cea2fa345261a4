/-
**How code is made.** Code is made at a place: in a context that knows the declarations in front of
the statement. A derivation says for every part of a script which code it has, where its names were
found, and which helpers were taken into use for it. What holds of all accepted programs is read off
their derivations.

* `TokenMade`, `OperandMade`, `TokensMade`, `StepsMade`, `CallMade`, `ArgumentsMade`: expressions.
* `KindMade`, `OtherwiseMade`, `BlockMade`: statements, each block from the place it is entered at.
* `TokensMade.code`, `BlockMade.code`: what is made of a script is its code.
-/

import TypedScript.Proofs.Scoping.Steps

namespace TypedScript

mutual

/-- The code of an operand. -/
inductive TokenMade : Context → Token → Target.Expr → List Helper → Prop
  | number : TokenMade place (.number value) (.number value) []
  | text : TokenMade place (.text value) (.text value) []
  | bool : TokenMade place (.bool value) (.bool value) []
  | null : TokenMade place .null .null []
  | object : TokenMade place (.object literal) (.object literal.value) []
  | array : TokenMade place (.array literal) (.array literal.value) []
  | group (inner : TokensMade place tokens code used) :
      TokenMade place (.group tokens) (.group code) used
  | access (known : Context.Knows place base) (taken : StepsMade place (.name base) steps code used) :
      TokenMade place (.access base steps) code used
  | call (called : CallMade place base steps arguments code used) :
      TokenMade place (.call base steps arguments) code used
  | lambda (opens : Opens place (params.map Param.name) body inside)
      (block : BlockMade false inside body code used) :
      TokenMade place (.lambda params body) (.arrow (awaits body) (params.map Param.name) code) used
  | await (awaited : TokenMade place operand code used) :
      TokenMade place (.await operand) (.await code) used

/-- A value and the operators in front of it. -/
inductive OperandMade : Context → List Token → Target.Expr → List Helper → Prop
  | value (single : TokenMade place token code used) : OperandMade place [token] code used
  | unary (isUnary : op.isUnary = true) (operand : OperandMade place tokens code used) :
      OperandMade place (.operator op :: tokens) (unaryCode op code) used

/-- An expression, from left to right. -/
inductive TokensMade : Context → List Token → Target.Expr → List Helper → Prop
  | operand (operand : OperandMade place tokens code used) : TokensMade place tokens code used
  | binary (front : TokensMade place left leftCode used) (joins : op.joinsOperands = true)
      (operand : OperandMade place right rightCode more) :
      TokensMade place (left ++ .operator op :: right) (.binary op leftCode rightCode) (more ++ used)

/-- The steps behind a receiver. -/
inductive StepsMade : Context → Target.Expr → List Step → Target.Expr → List Helper → Prop
  | nil : StepsMade place receiver [] receiver []
  | property (taken : StepsMade place (.member receiver name) rest code used) :
      StepsMade place receiver (.property name :: rest) code used
  | index (inner : TokensMade place tokens index used)
      (taken : StepsMade place (.index receiver index) rest code more) :
      StepsMade place receiver (.index tokens :: rest) code (more ++ used)

/-- A call. -/
inductive CallMade : Context → String → List Step → List (List Token) → Target.Expr →
    List Helper → Prop
  | callee (known : Context.Knows place base) (taken : StepsMade place (.name base) steps code used)
      (values : ArgumentsMade place arguments codes more) :
      CallMade place base steps arguments (.call code codes) (used ++ more)
  | helper (known : Context.Knows place base)
      (taken : StepsMade place (.name base) steps receiver used)
      (named : helper.name = "__hsc_" ++ name) (values : ArgumentsMade place arguments codes more) :
      CallMade place base (steps ++ [.property name]) arguments
        (.call (.name helper.name) (receiver :: codes)) (helper :: used ++ more)

/-- Arguments. -/
inductive ArgumentsMade : Context → List (List Token) → List Target.Expr → List Helper → Prop
  | nil : ArgumentsMade place [] [] []
  | cons (first : TokensMade place argument code used)
      (others : ArgumentsMade place rest codes more) :
      ArgumentsMade place (argument :: rest) (code :: codes) (more ++ used)

/-- A statement. -/
inductive KindMade : Context → Kind → Target.Stmt → List Helper → Prop
  | declare (inner : TokensMade place value code used) :
      KindMade place (.declare name type value constant)
        (.declare constant name (type.truncate code)) used
  | modify (known : Context.Knows place base)
      (taken : StepsMade place (.name base) steps target used)
      (inner : TokensMade place value code more) :
      KindMade place (.modify base steps op value) (assignmentCode integer op target code)
        (more ++ used)
  | expression (inner : TokensMade place tokens code used) :
      KindMade place (.expression tokens) (.evaluate code) used
  | call (called : CallMade place base steps arguments code used) :
      KindMade place (.call base steps arguments) (.evaluate code) used
  | function (opens : Opens place (params.map Param.name) body inside)
      (block : BlockMade false inside body code used) :
      KindMade place (.function name params returns body)
        (.function (awaits body) name (params.map Param.name) code) used
  | branch (tested : TokensMade place condition test used) (opens : Opens place [] body inside)
      (block : BlockMade false inside body code more)
      (rest : OtherwiseMade place otherwise alternative further) :
      KindMade place (.branch condition body otherwise) (.branch test code alternative)
        (further ++ more ++ used)
  | loop (tested : TokensMade place condition test used) (opens : Opens place [] body inside)
      (block : BlockMade false inside body code more) :
      KindMade place (.loop condition body) (.loop test code) (more ++ used)
  | returnsNothing : KindMade place (.returns none) (.returns none) []
  | returnsValue {type : Ty} (inner : TokensMade place tokens code used) :
      KindMade place (.returns (some tokens)) (.returns (some (type.truncate code))) used

/-- The code of the other side of a branch. -/
inductive OtherwiseMade : Context → Otherwise → Target.Alternative → List Helper → Prop
  | nothing : OtherwiseMade place .nothing .nothing []
  | block (opens : Opens place [] body inside) (block : BlockMade false inside body code used) :
      OtherwiseMade place (.block body) (.block code) used
  | elseIf (tested : TokensMade place condition test used) (opens : Opens place [] body inside)
      (block : BlockMade false inside body code more)
      (rest : OtherwiseMade place otherwise alternative further) :
      OtherwiseMade place (.elseIf line condition body otherwise) (.elseIf test code alternative)
        (further ++ more ++ used)

/-- The code of the statements of a block from a place of it on. Behind each of them its variables
are known. -/
inductive BlockMade : Bool → Context → List Stmt → List Target.Stmt → List Helper → Prop
  | nil : BlockMade toplevel place [] [] []
  | cons (run : generateStatement toplevel stmt place = (some code, after))
      (gains : Context.Gains place after (Target.declaredVariables [code]))
      (one : KindMade place stmt.kind code used)
      (behind : BlockMade toplevel after rest codes more) :
      BlockMade toplevel place (stmt :: rest) (code :: codes) (more ++ used)
  | imports (run : generateStatement toplevel stmt place = (none, after))
      (gains : Context.Gains place after []) (isImport : stmt.kind.isImport = true)
      (behind : BlockMade toplevel after rest codes used) :
      BlockMade toplevel place (stmt :: rest) codes used

end

theorem StepsMade.append {first : List Step}
    (front : StepsMade place receiver first middle used)
    (back : StepsMade place middle second code more) :
    StepsMade place receiver (first ++ second) code (more ++ used) := by
  induction first generalizing receiver used with
  | nil =>
    cases front
    rwa [List.append_nil]
  | cons step rest ih =>
    cases front with
    | property taken => exact .property (ih taken)
    | index inner taken =>
      rw [← List.append_assoc]
      exact .index inner (ih taken)

/-! ### The code of a script -/

mutual

theorem TokenMade.code : TokenMade place token code used → TokenCode token code
  | .number => .number _
  | .text => .text _
  | .bool => .bool _
  | .null => .null
  | .object => .object _
  | .array => .array _
  | .group inner => .group inner.code
  | .access _ taken => .access taken.code
  | .call called => .call called.code
  | .lambda _ block => .lambda block.code
  | .await awaited => .await awaited.code

theorem OperandMade.code : OperandMade place tokens code used → OperandCode tokens code
  | .value single => .value single.code
  | .unary isUnary operand => .unary isUnary operand.code

theorem TokensMade.code : TokensMade place tokens code used → TokensCode tokens code
  | .operand operand => .operand operand.code
  | .binary front joins operand => .binary front.code joins operand.code

theorem StepsMade.code : StepsMade place receiver steps code used → StepsCode receiver steps code
  | .nil => .nil _
  | .property taken => .property taken.code
  | .index inner taken => .index inner.code taken.code

theorem CallMade.code :
    CallMade place base steps arguments code used → CallCode base steps arguments code
  | .callee _ taken values => .callee taken.code values.code
  | .helper _ taken named values => .helper taken.code named values.code

theorem ArgumentsMade.code :
    ArgumentsMade place arguments codes used → ArgumentsCode arguments codes
  | .nil => .nil
  | .cons first others => .cons first.code others.code

theorem KindMade.code : KindMade place kind code used → KindCode kind code
  | .declare inner => .declare inner.code
  | .modify _ taken inner => .modify taken.code inner.code
  | .expression inner => .expression inner.code
  | .call called => .call called.code
  | .function _ block => .function block.code
  | .branch tested _ block rest => .branch tested.code block.code rest.code
  | .loop tested _ block => .loop tested.code block.code
  | .returnsNothing => .returnsNothing
  | .returnsValue inner => .returnsValue inner.code

theorem OtherwiseMade.code : OtherwiseMade place otherwise code used → OtherwiseCode otherwise code
  | .nothing => .nothing
  | .block _ block => .block block.code
  | .elseIf tested _ block rest => .elseIf tested.code block.code rest.code

/-- What is made is a translation. -/
theorem BlockMade.code : BlockMade toplevel place body code used → BlockCode body code
  | .nil => .intro .nil
  | .cons _ _ one behind => .cons one.code behind.code
  | .imports _ _ isImport behind => .behindImport isImport behind.code

end

/-! ### Induction on derivations -/

/-- What is to hold of the code that is made. Operators and their operand are tokens like those of a
whole expression, and a call is one token. -/
structure Invariant where
  token : Context → Token → Target.Expr → List Helper → Prop
  tokens : Context → List Token → Target.Expr → List Helper → Prop
  steps : Context → Target.Expr → List Step → Target.Expr → List Helper → Prop
  arguments : Context → List (List Token) → List Target.Expr → List Helper → Prop
  kind : Context → Kind → Target.Stmt → List Helper → Prop
  otherwise : Context → Otherwise → Target.Alternative → List Helper → Prop
  block : Bool → Context → List Stmt → List Target.Stmt → List Helper → Prop

/-- The rules for expressions. Of a block it is known besides how it is made. -/
structure ExpressionRules (holds : Invariant) : Prop where
  number : holds.token place (.number value) (.number value) []
  text : holds.token place (.text value) (.text value) []
  bool : holds.token place (.bool value) (.bool value) []
  null : holds.token place .null .null []
  object : holds.token place (.object literal) (.object literal.value) []
  array : holds.token place (.array literal) (.array literal.value) []
  group (inner : holds.tokens place tokens code used) :
    holds.token place (.group tokens) (.group code) used
  access (known : Context.Knows place base) (taken : holds.steps place (.name base) steps code used) :
    holds.token place (.access base steps) code used
  callee (known : Context.Knows place base) (taken : holds.steps place (.name base) steps code used)
    (values : holds.arguments place arguments codes more) :
    holds.token place (.call base steps arguments) (.call code codes) (used ++ more)
  helper (known : Context.Knows place base)
    (taken : holds.steps place (.name base) steps receiver used)
    (named : method.name = "__hsc_" ++ name) (values : holds.arguments place arguments codes more) :
    holds.token place (.call base (steps ++ [.property name]) arguments)
      (.call (.name method.name) (receiver :: codes)) (method :: used ++ more)
  lambda (opens : Opens place (params.map Param.name) body inside)
    (made : BlockMade false inside body code used) (block : holds.block false inside body code used) :
    holds.token place (.lambda params body)
      (.arrow (awaits body) (params.map Param.name) code) used
  await (awaited : holds.token place operand code used) :
    holds.token place (.await operand) (.await code) used
  value (single : holds.token place token code used) : holds.tokens place [token] code used
  unary (isUnary : op.isUnary = true) (operand : holds.tokens place tokens code used) :
    holds.tokens place (.operator op :: tokens) (unaryCode op code) used
  binary (front : holds.tokens place left leftCode used) (joins : op.joinsOperands = true)
    (operand : holds.tokens place right rightCode more) :
    holds.tokens place (left ++ .operator op :: right) (.binary op leftCode rightCode) (more ++ used)
  noStep : holds.steps place receiver [] receiver []
  property (taken : holds.steps place (.member receiver name) rest code used) :
    holds.steps place receiver (.property name :: rest) code used
  index (inner : holds.tokens place tokens inside used)
    (taken : holds.steps place (.index receiver inside) rest code more) :
    holds.steps place receiver (.index tokens :: rest) code (more ++ used)
  noArgument : holds.arguments place [] [] []
  argument (first : holds.tokens place tokens code used)
    (others : holds.arguments place rest codes more) :
    holds.arguments place (tokens :: rest) (code :: codes) (more ++ used)

/-- The rules for statements. -/
structure StatementRules (holds : Invariant) : Prop where
  declare (inner : holds.tokens place value code used) :
    holds.kind place (.declare name type value constant)
      (.declare constant name (type.truncate code)) used
  modify (known : Context.Knows place base)
    (taken : holds.steps place (.name base) steps target used)
    (inner : holds.tokens place value code more) :
    holds.kind place (.modify base steps op value) (assignmentCode integer op target code)
      (more ++ used)
  expression (inner : holds.tokens place tokens code used) :
    holds.kind place (.expression tokens) (.evaluate code) used
  call (called : holds.token place (.call base steps arguments) code used) :
    holds.kind place (.call base steps arguments) (.evaluate code) used
  function (opens : Opens place (params.map Param.name) body inside)
    (made : BlockMade false inside body code used) (block : holds.block false inside body code used) :
    holds.kind place (.function name params returns body)
      (.function (awaits body) name (params.map Param.name) code) used
  branch (tested : holds.tokens place condition test used) (opens : Opens place [] body inside)
    (made : BlockMade false inside body code more) (block : holds.block false inside body code more)
    (rest : holds.otherwise place otherwise alternative further) :
    holds.kind place (.branch condition body otherwise) (.branch test code alternative)
      (further ++ more ++ used)
  loop (tested : holds.tokens place condition test used) (opens : Opens place [] body inside)
    (made : BlockMade false inside body code more) (block : holds.block false inside body code more) :
    holds.kind place (.loop condition body) (.loop test code) (more ++ used)
  returnsNothing : holds.kind place (.returns none) (.returns none) []
  returnsValue {type : Ty} (inner : holds.tokens place tokens code used) :
    holds.kind place (.returns (some tokens)) (.returns (some (type.truncate code))) used
  nothing : holds.otherwise place .nothing .nothing []
  block (opens : Opens place [] body inside) (made : BlockMade false inside body code used)
    (block : holds.block false inside body code used) :
    holds.otherwise place (.block body) (.block code) used
  elseIf (tested : holds.tokens place condition test used) (opens : Opens place [] body inside)
    (made : BlockMade false inside body code more) (block : holds.block false inside body code more)
    (rest : holds.otherwise place otherwise alternative further) :
    holds.otherwise place (.elseIf line condition body otherwise) (.elseIf test code alternative)
      (further ++ more ++ used)
  noStatement : holds.block toplevel place [] [] []
  statement (run : generateStatement toplevel stmt place = (some code, after))
    (gains : Context.Gains place after (Target.declaredVariables [code]))
    (one : holds.kind place stmt.kind code used)
    (behind : holds.block toplevel after rest codes more) :
    holds.block toplevel place (stmt :: rest) (code :: codes) (more ++ used)
  imports (run : generateStatement toplevel stmt place = (none, after))
    (gains : Context.Gains place after []) (isImport : stmt.kind.isImport = true)
    (behind : holds.block toplevel after rest codes used) :
    holds.block toplevel place (stmt :: rest) codes used

/-- All rules. -/
structure Rules (holds : Invariant) : Prop extends ExpressionRules holds, StatementRules holds

section Induction

variable {holds : Invariant} (rules : Rules holds)

include rules

mutual

theorem TokenMade.holds : TokenMade place token code used → holds.token place token code used
  | .number => rules.number
  | .text => rules.text
  | .bool => rules.bool
  | .null => rules.null
  | .object => rules.object
  | .array => rules.array
  | .group inner => rules.group inner.holds
  | .access known taken => rules.access known taken.holds
  | .call called => called.holds
  | .lambda opens block => rules.lambda opens block block.holds
  | .await awaited => rules.await awaited.holds

theorem OperandMade.holds : OperandMade place tokens code used → holds.tokens place tokens code used
  | .value single => rules.value single.holds
  | .unary isUnary operand => rules.unary isUnary operand.holds

theorem TokensMade.holds : TokensMade place tokens code used → holds.tokens place tokens code used
  | .operand operand => operand.holds
  | .binary front joins operand => rules.binary front.holds joins operand.holds

theorem StepsMade.holds :
    StepsMade place receiver steps code used → holds.steps place receiver steps code used
  | .nil => rules.noStep
  | .property taken => rules.property taken.holds
  | .index inner taken => rules.index inner.holds taken.holds

theorem CallMade.holds : CallMade place base steps arguments code used →
    holds.token place (.call base steps arguments) code used
  | .callee known taken values => rules.callee known taken.holds values.holds
  | .helper known taken named values => rules.helper known taken.holds named values.holds

theorem ArgumentsMade.holds :
    ArgumentsMade place arguments codes used → holds.arguments place arguments codes used
  | .nil => rules.noArgument
  | .cons first others => rules.argument first.holds others.holds

theorem KindMade.holds : KindMade place kind code used → holds.kind place kind code used
  | .declare inner => rules.declare inner.holds
  | .modify known taken inner => rules.modify known taken.holds inner.holds
  | .expression inner => rules.expression inner.holds
  | .call called => rules.call called.holds
  | .function opens block => rules.function opens block block.holds
  | .branch tested opens block rest => rules.branch tested.holds opens block block.holds rest.holds
  | .loop tested opens block => rules.loop tested.holds opens block block.holds
  | .returnsNothing => rules.returnsNothing
  | .returnsValue inner => rules.returnsValue inner.holds

theorem OtherwiseMade.holds :
    OtherwiseMade place otherwise code used → holds.otherwise place otherwise code used
  | .nothing => rules.nothing
  | .block opens block => rules.block opens block block.holds
  | .elseIf tested opens block rest => rules.elseIf tested.holds opens block block.holds rest.holds

/-- **Induction on how code is made.** What the rules preserve holds of every block. -/
theorem BlockMade.holds :
    BlockMade toplevel place body code used → holds.block toplevel place body code used
  | .nil => rules.noStatement
  | .cons run gains one behind => rules.statement run gains one.holds behind.holds
  | .imports run gains isImport behind => rules.imports run gains isImport behind.holds

end

end Induction

end TypedScript
