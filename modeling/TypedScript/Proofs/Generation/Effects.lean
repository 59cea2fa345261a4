/-
**How often calls are emitted.** The code of an expression has each of its calls once, in the same
order, and each block inside it once. So has the code of a statement, except that an operation on a
stored integer is written out: `a[f()] += 1` is emitted as an assignment to `a[f()]` of a value that
is computed from `a[f()]`, and what its target does is done twice.

* `EffectCode`, `StatementEffects`: **what a program does is what its script does**, but for that.
-/

import TypedScript.Proofs.Generation.Modifications

namespace TypedScript

/-! ### What scripts and programs do -/

/-- What an expression of a script does. -/
inductive Effect where
  | call (base : String) (steps : List Step) (arguments : List (List Token))
  | block (body : List Stmt)

mutual

/-- What a token does, a call in front of what its steps and arguments do. -/
def Token.effects : Token → List Effect
  | .access _ steps => stepsEffects steps
  | .group tokens => tokensEffects tokens
  | .call base steps arguments =>
    .call base steps arguments :: (stepsEffects steps ++ argumentsEffects arguments)
  | .lambda _ body => [.block body]
  | .await operand => operand.effects
  | .number _ | .text _ | .bool _ | .null | .operator _ | .object _ | .array _ => []

def tokensEffects : List Token → List Effect
  | [] => []
  | token :: rest => token.effects ++ tokensEffects rest

def stepsEffects : List Step → List Effect
  | [] => []
  | .property _ :: rest => stepsEffects rest
  | .index tokens :: rest => tokensEffects tokens ++ stepsEffects rest

def argumentsEffects : List (List Token) → List Effect
  | [] => []
  | tokens :: rest => tokensEffects tokens ++ argumentsEffects rest

end

/-- What the other side of a branch does. -/
def Otherwise.effects : Otherwise → List Effect
  | .nothing => []
  | .block body => [.block body]
  | .elseIf _ condition body otherwise =>
    tokensEffects condition ++ .block body :: otherwise.effects

/-- What a statement does. -/
def Kind.effects : Kind → List Effect
  | .declare _ _ value _ => tokensEffects value
  | .modify _ steps _ value => stepsEffects steps ++ tokensEffects value
  | .expression tokens => tokensEffects tokens
  | .function _ _ _ body => [.block body]
  | .branch condition body otherwise =>
    tokensEffects condition ++ .block body :: otherwise.effects
  | .loop condition body => tokensEffects condition ++ [.block body]
  | .call base steps arguments =>
    .call base steps arguments :: (stepsEffects steps ++ argumentsEffects arguments)
  | .imports _ => []
  | .returns none => []
  | .returns (some tokens) => tokensEffects tokens

namespace Target

/-- What an expression of a program does. -/
inductive Effect where
  | call (code : Expr)
  | block (body : List Stmt)

mutual

/-- What an expression does, a call in front of what its callee and arguments do. -/
def Expr.effects : Expr → List Effect
  | .member receiver _ => receiver.effects
  | .index receiver index => receiver.effects ++ index.effects
  | .call callee arguments =>
    .call (.call callee arguments) :: (callee.effects ++ argumentsEffects arguments)
  | .not inner | .minus inner | .await inner | .group inner | .toInt inner | .toUint inner =>
    inner.effects
  | .binary _ left right => left.effects ++ right.effects
  | .arrow _ _ body => [.block body]
  | .number _ | .text _ | .bool _ | .null | .array _ | .object _ | .name _ => []

def argumentsEffects : List Expr → List Effect
  | [] => []
  | argument :: rest => argument.effects ++ argumentsEffects rest

end

/-- What the other side of a branch does. -/
def Alternative.effects : Alternative → List Effect
  | .nothing => []
  | .block body => [.block body]
  | .elseIf condition body alternative =>
    condition.effects ++ .block body :: alternative.effects

/-- What a statement does. -/
def Stmt.effects : Stmt → List Effect
  | .declare _ _ value => value.effects
  | .assign target _ value => target.effects ++ value.effects
  | .evaluate value => value.effects
  | .function _ _ _ body => [.block body]
  | .branch condition body alternative =>
    condition.effects ++ .block body :: alternative.effects
  | .loop condition body => condition.effects ++ [.block body]
  | .returns none => []
  | .returns (some value) => value.effects

end Target

/-- What a modification does once more because it is written out. -/
def Kind.repeated : Kind → Target.Stmt → List Effect
  | .modify _ steps op _, .assign _ used _ =>
    if op.compoundBase?.isSome && used == .assign then stepsEffects steps else []
  | _, _ => []

mutual

/-- What a program does for an effect. -/
inductive EffectCode : Effect → Target.Effect → Prop
  | call (called : CallCode base steps arguments code) :
      EffectCode (.call base steps arguments) (.call code)
  | block (statements : List.Forall₂ StatementEffects (codedKinds body) code) :
      EffectCode (.block body) (.block code)

/-- A statement of a program does what that of its script does, one after the other. In front of
that stands what is repeated. -/
inductive StatementEffects : Kind → Target.Stmt → Prop
  | intro (each : List.Forall₂ EffectCode (kind.repeated code ++ kind.effects) code.effects) :
      StatementEffects kind code

end

/-! ### Generated code -/

theorem tokensEffects_append (front back : List Token) :
    tokensEffects (front ++ back) = tokensEffects front ++ tokensEffects back := by
  induction front with
  | nil => rfl
  | cons token rest ih =>
    rw [List.cons_append, tokensEffects, tokensEffects, ih, List.append_assoc]

theorem stepsEffects_property (steps : List Step) (name : String) :
    stepsEffects (steps ++ [.property name]) = stepsEffects steps := by
  induction steps with
  | nil => rfl
  | cons step rest ih => cases step <;> simp [stepsEffects, ih]

theorem effects_unaryCode (op : Operator) (operand : Target.Expr) :
    (unaryCode op operand).effects = operand.effects := by
  cases op <;> simp only [unaryCode, Target.Expr.effects]

theorem effects_truncate (type : Ty) (code : Target.Expr) :
    (type.truncate code).effects = code.effects := by
  unfold Ty.truncate
  split_ifs
  · rw [Target.Expr.effects]
  · rw [Target.Expr.effects]
  · rfl

theorem effects_assignmentCode (integer : Option Ty) (op : Operator) (target value : Target.Expr) :
    (assignmentCode integer op target value).effects =
      (if op.compoundBase?.isSome && integer.isSome then target.effects else []) ++
        (target.effects ++ value.effects) := by
  cases integer with
  | none => rw [Option.isSome_none, Bool.and_false]; rfl
  | some type =>
    unfold assignmentCode
    cases op.compoundBase? with
    | none => rw [Target.Stmt.effects, effects_truncate]; rfl
    | some operation =>
      rw [Target.Stmt.effects, effects_truncate, Target.Expr.effects, Target.Expr.effects]
      rfl

theorem repeated_assignmentCode (base : String) (steps : List Step) (op : Operator)
    (value : List Token) (integer : Option Ty) (target stored : Target.Expr) :
    (Kind.modify base steps op value).repeated (assignmentCode integer op target stored) =
      if op.compoundBase?.isSome && integer.isSome then stepsEffects steps else [] := by
  cases integer with
  | none | some => cases op <;> rfl

/-- **A statement is emitted as one that does the same**, but for what is written out. -/
theorem KindCode.emits {kind : Kind} {code : Target.Stmt} (generated : KindCode kind code) :
    StatementEffects kind code := by
  -- Steps add what they do to what their receiver does, which is nothing if it is a name.
  apply @KindCode.rec
    (fun token code _ => List.Forall₂ EffectCode token.effects code.effects)
    (fun tokens code _ => List.Forall₂ EffectCode (tokensEffects tokens) code.effects)
    (fun tokens code _ => List.Forall₂ EffectCode (tokensEffects tokens) code.effects)
    (fun receiver steps code _ => ∀ effects, List.Forall₂ EffectCode effects receiver.effects →
      List.Forall₂ EffectCode (effects ++ stepsEffects steps) code.effects)
    (fun base steps arguments code _ => List.Forall₂ EffectCode
      (.call base steps arguments :: (stepsEffects steps ++ argumentsEffects arguments))
      code.effects)
    (fun arguments codes _ =>
      List.Forall₂ EffectCode (argumentsEffects arguments) (Target.argumentsEffects codes))
    (fun kind code _ => StatementEffects kind code)
    (fun otherwise code _ => List.Forall₂ EffectCode otherwise.effects code.effects)
    (fun body code _ => List.Forall₂ StatementEffects (codedKinds body) code)
    (fun kinds code _ => List.Forall₂ StatementEffects kinds code)
  case number | text | bool | object | array => exact fun _ => .nil
  case null | nothing => exact .nil
  case group => exact fun _ inner => inner
  case access => exact fun _ taken => taken [] .nil
  case call => exact fun _ called => called
  case lambda | block => exact fun _ block => .cons (.block block) .nil
  case await => exact fun _ awaited => awaited
  case value =>
    intro token code _ single
    rwa [tokensEffects, tokensEffects, List.append_nil]
  case unary =>
    intro tokens code op _ _ operand
    rwa [effects_unaryCode, tokensEffects, Token.effects, List.nil_append]
  case operand => exact fun _ operand => operand
  case binary =>
    intro left leftCode right rightCode op _ _ _ front operand
    rw [tokensEffects_append, tokensEffects, Token.effects, List.nil_append, Target.Expr.effects]
    exact List.rel_append front operand
  case nil =>
    intro receiver effects start
    rwa [stepsEffects, List.append_nil]
  case property => exact fun _ taken effects start => taken effects start
  case index =>
    intro tokens index receiver rest code _ _ inner taken effects start
    rw [stepsEffects, ← List.append_assoc]
    exact taken _ (List.rel_append start inner)
  case callee =>
    intro base steps code arguments codes target values taken given
    exact .cons (.call (.callee target values)) (List.rel_append (taken [] .nil) given)
  case helper =>
    intro base name steps arguments receiver codes helper target named values taken given
    rw [stepsEffects_property]
    exact .cons (.call (.helper target named values)) (List.rel_append (taken [] .nil) given)
  case nil => exact .nil
  case cons => exact fun _ _ first others => List.rel_append first others
  case declare =>
    intro value code name type constant _ inner
    refine ⟨?_⟩
    rwa [Target.Stmt.effects, effects_truncate]
  case modify =>
    intro base steps target value code op integer _ _ taken inner
    have target := taken [] .nil
    refine ⟨?_⟩
    rw [repeated_assignmentCode, effects_assignmentCode]
    refine List.rel_append ?_ (List.rel_append target inner)
    split
    · exact target
    · exact .nil
  case expression => exact fun _ inner => ⟨inner⟩
  case call => exact fun _ called => ⟨called⟩
  case function => exact fun _ block => ⟨.cons (.block block) .nil⟩
  case branch =>
    exact fun _ _ _ tested block rest => ⟨List.rel_append tested (.cons (.block block) rest)⟩
  case loop => exact fun _ _ tested block => ⟨List.rel_append tested (.cons (.block block) .nil)⟩
  case returnsNothing => exact ⟨.nil⟩
  case returnsValue =>
    intro tokens type code _ inner
    refine ⟨?_⟩
    rwa [Target.Stmt.effects, effects_truncate]
  case elseIf =>
    exact fun _ _ _ tested block rest => List.rel_append tested (.cons (.block block) rest)
  case intro => exact fun _ statements => statements
  case nil => exact .nil
  case cons => exact fun _ _ one others => .cons one others
  exact generated

/-! ### Modifications -/

/-- **The calls of a modification.** A modification that is accepted, in any context, is emitted as a
statement that does what the modification does: first what its steps do, then what its value does,
each call once and each inner block once. Only an operation on a stored integer is written out, so
that the statement does first, and once more, what the steps do. -/
theorem calls_emitted {context : Context} {toplevel : Bool} {line : Nat} {base : String}
    {steps : List Step} {op : Operator} {value : List Token}
    (accepted : (generateKind toplevel line (.modify base steps op value) context).2.diagnostics =
      context.diagnostics) :
    ∃ code, (generateKind toplevel line (.modify base steps op value) context).1 = some code ∧
      List.Forall₂ EffectCode
        ((if op.compoundBase?.isSome && (context.integerAt? base steps).isSome then
            stepsEffects steps else []) ++ (stepsEffects steps ++ tokensEffects value))
        code.effects := by
  have delivers : Gen.Delivers True (generateKind toplevel line (.modify base steps op value)) _ :=
    (generateKind_code toplevel line (.modify base steps op value)).weaken (fun _ => rfl)
      fun _ _ emitted => emitted
  obtain ⟨code, found, emitted⟩ := delivers.result_of_quiet context accepted
  refine ⟨code, found, ?_⟩
  obtain ⟨each⟩ := KindCode.emits emitted
  have run : generateKind toplevel line (.modify base steps op value) context =
      (some code, (generateKind toplevel line (.modify base steps op value) context).2) :=
    Prod.ext found rfl
  rw [generateKind] at run
  obtain ⟨target, -, stored, -, -, -, -, rfl⟩ := generateModification_run run
  rwa [repeated_assignmentCode] at each

/-- A context with a list of integers and two functions. -/
def countingContext : Context :=
  (((Context.start fun path => .error (.variableNotDeclared path)).declare
    ⟨"a", .value (.arrayOf (.simple "int")), true⟩).declare
      ⟨"f", .function [] (.simple "int") false false, true⟩).declare
        ⟨"g", .function [⟨"n", .simple "number"⟩] (.simple "int") false false, true⟩

theorem calls_emitted_nested :
    let call : Token := .call "f" [] []
    let value : List Token := [.call "g" [] [[call]]]
    ∃ code, (generateKind true 1 (.modify "a" [.index [call]] .subAssign value)
        countingContext).1 = some code ∧
      List.Forall₂ EffectCode
        [.call "f" [] [], .call "f" [] [], .call "g" [] [[call]], .call "f" [] []] code.effects := by
  intro call value
  have accepted : (generateKind true 1 (.modify "a" [.index [call]] .subAssign value)
      countingContext).2.diagnostics = countingContext.diagnostics := rfl
  exact calls_emitted accepted

/-- **A call in an index can be emitted twice**: `a[f()] += 1` calls `f` for the integer that is read
and once more for the one that is stored. -/
theorem index_called_twice :
    ¬ ∀ (context : Context) (toplevel : Bool) (line : Nat) (base : String) (steps : List Step)
      (op : Operator) (value : List Token) (code : Target.Stmt),
      generateKind toplevel line (.modify base steps op value) context = (some code, context) →
      List.Forall₂ EffectCode (stepsEffects steps ++ tokensEffects value) code.effects := by
  intro once
  have run : ∃ code, generateKind true 1 (.modify "a" [.index [.call "f" [] []]] .addAssign
      [.number (.ofDecimal false 1 0)]) countingContext = (some code, countingContext) ∧
      code.effects.length = 2 := ⟨_, rfl, rfl⟩
  obtain ⟨code, run, twice⟩ := run
  have same := (once _ _ _ _ _ _ _ _ run).length_eq
  rw [twice] at same
  exact absurd same (by decide)

end TypedScript
