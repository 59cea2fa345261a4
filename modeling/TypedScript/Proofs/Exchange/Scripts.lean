/-
**Scripts in which two statements are exchanged.** Two statements stand one after the other in a
block at any depth: in the script itself, in the body of a function, in a branch, in a loop, or in a
lambda of any expression. They may stand so in several places, and in each are exchanged or not.
-/

import Mathlib.Logic.Basic
import TypedScript.Generation.Awaiting

namespace TypedScript

/-- Tokens in which no statement can stand. -/
def Token.isPlain : Token → Bool
  | .number _ => true
  | .text _ => true
  | .bool _ => true
  | .null => true
  | .operator _ => true
  | .object _ => true
  | .array _ => true
  | _ => false

section Relations

variable (first second : Stmt)

mutual

/-- Tokens that differ in exchanges inside them. -/
inductive TokenExchanged : Bool → Token → Token → Prop
  | plain (isPlain : token.isPlain = true) : TokenExchanged false token token
  | group (inner : TokensExchanged found tokens tokens') :
      TokenExchanged found (.group tokens) (.group tokens')
  | access (taken : StepsExchanged found steps steps') :
      TokenExchanged found (.access base steps) (.access base steps')
  | call (taken : StepsExchanged found steps steps')
      (values : ArgumentsExchanged found' arguments arguments') :
      TokenExchanged (found || found') (.call base steps arguments) (.call base steps' arguments')
  | lambda (block : BlockExchanged found body body') :
      TokenExchanged found (.lambda params body) (.lambda params body')
  | await (awaited : TokenExchanged found operand operand') :
      TokenExchanged found (.await operand) (.await operand')

/-- Expressions. -/
inductive TokensExchanged : Bool → List Token → List Token → Prop
  | nil : TokensExchanged false [] []
  | cons (head : TokenExchanged found token token') (tail : TokensExchanged found' rest rest') :
      TokensExchanged (found || found') (token :: rest) (token' :: rest')

/-- A step. -/
inductive StepExchanged : Bool → Step → Step → Prop
  | property (name : String) : StepExchanged false (.property name) (.property name)
  | index (inner : TokensExchanged found tokens tokens') :
      StepExchanged found (.index tokens) (.index tokens')

/-- The steps of an access. -/
inductive StepsExchanged : Bool → List Step → List Step → Prop
  | nil : StepsExchanged false [] []
  | cons (head : StepExchanged found step step') (tail : StepsExchanged found' rest rest') :
      StepsExchanged (found || found') (step :: rest) (step' :: rest')

/-- Arguments. -/
inductive ArgumentsExchanged : Bool → List (List Token) → List (List Token) → Prop
  | nil : ArgumentsExchanged false [] []
  | cons (head : TokensExchanged found tokens tokens')
      (tail : ArgumentsExchanged found' rest rest') :
      ArgumentsExchanged (found || found') (tokens :: rest) (tokens' :: rest')

/-- Statements. -/
inductive KindExchanged : Bool → Kind → Kind → Prop
  | declare (inner : TokensExchanged found value value') :
      KindExchanged found (.declare name type value constant) (.declare name type value' constant)
  | modify (taken : StepsExchanged found steps steps')
      (inner : TokensExchanged found' value value') :
      KindExchanged (found || found') (.modify base steps op value) (.modify base steps' op value')
  | expression (inner : TokensExchanged found tokens tokens') :
      KindExchanged found (.expression tokens) (.expression tokens')
  | function (block : BlockExchanged found body body') :
      KindExchanged found (.function name params returns body) (.function name params returns body')
  | branch (tested : TokensExchanged found condition condition')
      (block : BlockExchanged found' body body')
      (rest : OtherwiseExchanged found'' otherwise otherwise') :
      KindExchanged (found || found' || found'') (.branch condition body otherwise)
        (.branch condition' body' otherwise')
  | loop (tested : TokensExchanged found condition condition')
      (block : BlockExchanged found' body body') :
      KindExchanged (found || found') (.loop condition body) (.loop condition' body')
  | call (taken : StepsExchanged found steps steps')
      (values : ArgumentsExchanged found' arguments arguments') :
      KindExchanged (found || found') (.call base steps arguments) (.call base steps' arguments')
  | imports (path : String) : KindExchanged false (.imports path) (.imports path)
  | returnsNothing : KindExchanged false (.returns none) (.returns none)
  | returnsValue (inner : TokensExchanged found tokens tokens') :
      KindExchanged found (.returns (some tokens)) (.returns (some tokens'))

/-- What stands behind an `if`. -/
inductive OtherwiseExchanged : Bool → Otherwise → Otherwise → Prop
  | nothing : OtherwiseExchanged false .nothing .nothing
  | block (block : BlockExchanged found body body') :
      OtherwiseExchanged found (.block body) (.block body')
  | elseIf (tested : TokensExchanged found condition condition')
      (block : BlockExchanged found' body body')
      (rest : OtherwiseExchanged found'' otherwise otherwise') :
      OtherwiseExchanged (found || found' || found'') (.elseIf line condition body otherwise)
        (.elseIf line condition' body' otherwise')

/-- The same statements but for such exchanges, with a mark that says whether there is one.
`TokensExchanged`, `KindExchanged` and the others: the same for the parts of a script. -/
inductive BlockExchanged : Bool → List Stmt → List Stmt → Prop
  | nil : BlockExchanged false [] []
  | cons (head : KindExchanged found kind kind') (tail : BlockExchanged found' rest rest') :
      BlockExchanged (found || found') (.mk line kind :: rest) (.mk line kind' :: rest')
  | exchange (tail : BlockExchanged found rest rest') :
      BlockExchanged true (first :: second :: rest) (second :: first :: rest')

end

end Relations

/-! ### Without an exchange -/

section Unchanged

variable {first second : Stmt}

mutual

theorem TokenExchanged.refl (token : Token) : TokenExchanged first second false token token := by
  cases token with
  | group tokens => exact .group (TokensExchanged.refl tokens)
  | access base steps => exact .access (StepsExchanged.refl steps)
  | call base steps arguments =>
    exact .call (StepsExchanged.refl steps) (ArgumentsExchanged.refl arguments)
  | lambda params body => exact .lambda (BlockExchanged.refl body)
  | await operand => exact .await (TokenExchanged.refl operand)
  | _ => exact .plain rfl

theorem TokensExchanged.refl (tokens : List Token) :
    TokensExchanged first second false tokens tokens := by
  cases tokens with
  | nil => exact .nil
  | cons token rest => exact .cons (TokenExchanged.refl token) (TokensExchanged.refl rest)

theorem StepExchanged.refl (step : Step) : StepExchanged first second false step step := by
  cases step with
  | property name => exact .property name
  | index tokens => exact .index (TokensExchanged.refl tokens)

theorem StepsExchanged.refl (steps : List Step) :
    StepsExchanged first second false steps steps := by
  cases steps with
  | nil => exact .nil
  | cons step rest => exact .cons (StepExchanged.refl step) (StepsExchanged.refl rest)

theorem ArgumentsExchanged.refl (arguments : List (List Token)) :
    ArgumentsExchanged first second false arguments arguments := by
  cases arguments with
  | nil => exact .nil
  | cons tokens rest => exact .cons (TokensExchanged.refl tokens) (ArgumentsExchanged.refl rest)

theorem KindExchanged.refl (kind : Kind) : KindExchanged first second false kind kind := by
  cases kind with
  | declare name type value constant => exact .declare (TokensExchanged.refl value)
  | modify base steps op value =>
    exact .modify (StepsExchanged.refl steps) (TokensExchanged.refl value)
  | expression tokens => exact .expression (TokensExchanged.refl tokens)
  | function name params returns body => exact .function (BlockExchanged.refl body)
  | branch condition body otherwise =>
    exact .branch (TokensExchanged.refl condition) (BlockExchanged.refl body)
      (OtherwiseExchanged.refl otherwise)
  | loop condition body => exact .loop (TokensExchanged.refl condition) (BlockExchanged.refl body)
  | call base steps arguments =>
    exact .call (StepsExchanged.refl steps) (ArgumentsExchanged.refl arguments)
  | imports path => exact .imports path
  | returns value? =>
    cases value? with
    | none => exact .returnsNothing
    | some tokens => exact .returnsValue (TokensExchanged.refl tokens)

theorem OtherwiseExchanged.refl (otherwise : Otherwise) :
    OtherwiseExchanged first second false otherwise otherwise := by
  cases otherwise with
  | nothing => exact .nothing
  | block body => exact .block (BlockExchanged.refl body)
  | elseIf line condition body otherwise =>
    exact .elseIf (TokensExchanged.refl condition) (BlockExchanged.refl body)
      (OtherwiseExchanged.refl otherwise)

/-- Every script is the same as itself, without an exchange. -/
theorem BlockExchanged.refl (block : List Stmt) :
    BlockExchanged first second false block block := by
  cases block with
  | nil => exact .nil
  | cons stmt rest =>
    cases stmt with
    | mk line kind => exact .cons (KindExchanged.refl kind) (BlockExchanged.refl rest)

end

end Unchanged

/-! ### Awaiting -/

section Awaiting

variable {first second : Stmt}

mutual

theorem TokenExchanged.awaits_eq {found : Bool} {token token' : Token}
    (exchanged : TokenExchanged first second found token token') :
    token'.awaits = token.awaits := by
  cases exchanged with
  | plain => rfl
  | group inner => exact inner.awaits_eq
  | access taken => exact taken.awaits_eq
  | call taken values => exact congrArg₂ or taken.awaits_eq values.awaits_eq
  | lambda | await => rfl

theorem TokensExchanged.awaits_eq {found : Bool} {tokens tokens' : List Token}
    (exchanged : TokensExchanged first second found tokens tokens') :
    tokensAwait tokens' = tokensAwait tokens := by
  cases exchanged with
  | nil => rfl
  | cons head tail => exact congrArg₂ or head.awaits_eq tail.awaits_eq

theorem StepExchanged.awaits_eq {found : Bool} {step step' : Step}
    (exchanged : StepExchanged first second found step step') : step'.awaits = step.awaits := by
  cases exchanged with
  | property => rfl
  | index inner => exact inner.awaits_eq

theorem StepsExchanged.awaits_eq {found : Bool} {steps steps' : List Step}
    (exchanged : StepsExchanged first second found steps steps') :
    stepsAwait steps' = stepsAwait steps := by
  cases exchanged with
  | nil => rfl
  | cons head tail => exact congrArg₂ or head.awaits_eq tail.awaits_eq

theorem ArgumentsExchanged.awaits_eq {found : Bool} {arguments arguments' : List (List Token)}
    (exchanged : ArgumentsExchanged first second found arguments arguments') :
    argumentsAwait arguments' = argumentsAwait arguments := by
  cases exchanged with
  | nil => rfl
  | cons head tail => exact congrArg₂ or head.awaits_eq tail.awaits_eq

end

mutual

theorem KindExchanged.awaits_eq {found : Bool} {kind kind' : Kind}
    (exchanged : KindExchanged first second found kind kind') : kind'.awaits = kind.awaits := by
  cases exchanged with
  | declare inner | expression inner | returnsValue inner => exact inner.awaits_eq
  | modify taken inner => exact congrArg₂ or inner.awaits_eq taken.awaits_eq
  | branch tested block rest =>
    exact congrArg₂ or (congrArg₂ or tested.awaits_eq block.awaits_eq) rest.awaits_eq
  | loop tested block => exact congrArg₂ or tested.awaits_eq block.awaits_eq
  | call taken values => exact congrArg₂ or taken.awaits_eq values.awaits_eq
  | function | imports | returnsNothing => rfl

theorem OtherwiseExchanged.awaits_eq {found : Bool} {otherwise otherwise' : Otherwise}
    (exchanged : OtherwiseExchanged first second found otherwise otherwise') :
    otherwise'.awaits = otherwise.awaits := by
  cases exchanged with
  | nothing => rfl
  | block block => exact block.awaits_eq
  | elseIf tested block rest =>
    exact congrArg₂ or (congrArg₂ or tested.awaits_eq block.awaits_eq) rest.awaits_eq

/-- Exchanging functions changes nothing about what awaits. -/
theorem BlockExchanged.awaits_eq {found : Bool} {block block' : List Stmt}
    (exchanged : BlockExchanged first second found block block') :
    awaits block' = awaits block := by
  cases exchanged with
  | nil => rfl
  | cons head tail => exact congrArg₂ or head.awaits_eq tail.awaits_eq
  | exchange tail =>
    refine (congrArg (fun others => second.awaits || (first.awaits || others))
      tail.awaits_eq).trans (Bool.or_left_comm ..)

end

end Awaiting

end TypedScript
