/-
**Parentheses.** Parentheses around a single value change neither the type of an expression nor what
is reported, wherever the value stands: as an operand, an argument, an index or behind `await`, at any
depth. Only a call that is awaited has to stand alone: in parentheses it is a promise, of type `any`.
-/

import TypedScript.Proofs.Exchange.Statements

set_option linter.unusedSectionVars false

namespace TypedScript

variable {token : Token} {line : Nat}

/-! ### Bare forms -/

def Token.isCall : Token → Bool
  | .call .. => true
  | _ => false

def Token.ofGroup : List Token → Token
  | [token] => if token.isValue then token else .group [token]
  | tokens => .group tokens

mutual

/-- A token without parentheses around single values. They stay around a call that is awaited. -/
def Token.bare : Token → Token
  | .group tokens => .ofGroup (bareTokens tokens)
  | .access base steps => .access base (bareSteps steps)
  | .call base steps arguments => .call base (bareSteps steps) (bareArguments arguments)
  | .lambda params body => .lambda params (bareBody body)
  | .await operand =>
    .await (if operand.bare.isCall && !operand.isCall then .group [operand.bare] else operand.bare)
  | token => token

/-- An expression without parentheses around single values. -/
def bareTokens : List Token → List Token
  | [] => []
  | token :: rest => token.bare :: bareTokens rest

def Step.bare : Step → Step
  | .property name => .property name
  | .index tokens => .index (bareTokens tokens)

def bareSteps : List Step → List Step
  | [] => []
  | step :: rest => step.bare :: bareSteps rest

def bareArguments : List (List Token) → List (List Token)
  | [] => []
  | tokens :: rest => bareTokens tokens :: bareArguments rest

def Kind.bare : Kind → Kind
  | .declare name type value constant => .declare name type (bareTokens value) constant
  | .modify base steps op value => .modify base (bareSteps steps) op (bareTokens value)
  | .expression tokens => .expression (bareTokens tokens)
  | .function name params returns body => .function name params returns (bareBody body)
  | .branch condition body otherwise =>
    .branch (bareTokens condition) (bareBody body) otherwise.bare
  | .loop condition body => .loop (bareTokens condition) (bareBody body)
  | .call base steps arguments => .call base (bareSteps steps) (bareArguments arguments)
  | .imports path => .imports path
  | .returns none => .returns none
  | .returns (some tokens) => .returns (some (bareTokens tokens))

def Otherwise.bare : Otherwise → Otherwise
  | .nothing => .nothing
  | .block body => .block (bareBody body)
  | .elseIf line condition body otherwise =>
    .elseIf line (bareTokens condition) (bareBody body) otherwise.bare

/-- Statements without parentheses around single values. -/
def bareBody : List Stmt → List Stmt
  | [] => []
  | .mk line kind :: rest => .mk line kind.bare :: bareBody rest

end

theorem alike_bareSteps (steps : List Step) : StepsAlike steps (bareSteps steps) := by
  induction steps with
  | nil => exact .nil
  | cons step rest ih =>
    refine .cons ?_ ih
    cases step with
    | property name => exact .property name
    | index tokens => exact .index ..

theorem Token.ofGroup_cases (tokens : List Token) :
    (∃ token, tokens = [token] ∧ token.isValue = true ∧ ofGroup tokens = token) ∨
      ofGroup tokens = .group tokens := by
  unfold ofGroup
  split
  · split_ifs with isValue
    · exact .inl ⟨_, rfl, isValue, rfl⟩
    · exact .inr rfl
  · exact .inr rfl

theorem Token.isValue_bare (token : Token) : token.bare.isValue = token.isValue := by
  cases token with
  | group tokens =>
    rw [Token.bare]
    obtain ⟨token, _, isValue, same⟩ | same := ofGroup_cases (bareTokens tokens)
    · rw [same, isValue]
      rfl
    · rw [same]
      rfl
  | _ => rfl

theorem Token.bare_group (isValue : token.isValue = true) :
    (Token.group [token]).bare = token.bare := by
  rw [Token.bare, bareTokens, bareTokens, ofGroup, isValue_bare, if_pos isValue]

mutual

theorem Token.awaits_bare (token : Token) : token.bare.awaits = token.awaits := by
  cases token with
  | group tokens =>
    rw [Token.bare, Token.awaits, ← tokensAwait_bare tokens]
    obtain ⟨token, only, _, same⟩ | same := Token.ofGroup_cases (bareTokens tokens)
    · rw [same, only, tokensAwait, tokensAwait, Bool.or_false]
    · rw [same, Token.awaits]
  | access base steps => rw [Token.bare, Token.awaits, Token.awaits, stepsAwait_bare]
  | call base steps arguments =>
    rw [Token.bare, Token.awaits, Token.awaits, stepsAwait_bare, argumentsAwait_bare]
  | _ => rfl

theorem tokensAwait_bare (tokens : List Token) :
    tokensAwait (bareTokens tokens) = tokensAwait tokens := by
  cases tokens with
  | nil => rfl
  | cons token rest =>
    rw [bareTokens, tokensAwait, tokensAwait, Token.awaits_bare, tokensAwait_bare]

theorem Step.awaits_bare (step : Step) : step.bare.awaits = step.awaits := by
  cases step with
  | property name => rfl
  | index tokens => rw [Step.bare, Step.awaits, Step.awaits, tokensAwait_bare]

theorem stepsAwait_bare (steps : List Step) : stepsAwait (bareSteps steps) = stepsAwait steps := by
  cases steps with
  | nil => rfl
  | cons step rest => rw [bareSteps, stepsAwait, stepsAwait, Step.awaits_bare, stepsAwait_bare]

theorem argumentsAwait_bare (arguments : List (List Token)) :
    argumentsAwait (bareArguments arguments) = argumentsAwait arguments := by
  cases arguments with
  | nil => rfl
  | cons tokens rest =>
    rw [bareArguments, argumentsAwait, argumentsAwait, tokensAwait_bare, argumentsAwait_bare]

end

mutual

theorem Kind.awaits_bare (kind : Kind) : kind.bare.awaits = kind.awaits := by
  cases kind with
  | branch condition body otherwise =>
    rw [Kind.bare, Kind.awaits, Kind.awaits, tokensAwait_bare, TypedScript.awaits_bare,
      Otherwise.awaits_bare]
  | loop condition body =>
    rw [Kind.bare, Kind.awaits, Kind.awaits, tokensAwait_bare, TypedScript.awaits_bare]
  | returns value => cases value <;> simp [Kind.bare, Kind.awaits, tokensAwait_bare]
  | _ => simp [Kind.bare, Kind.awaits, tokensAwait_bare, stepsAwait_bare, argumentsAwait_bare]

theorem Otherwise.awaits_bare (otherwise : Otherwise) :
    otherwise.bare.awaits = otherwise.awaits := by
  cases otherwise with
  | nothing => rfl
  | block body => rw [Otherwise.bare, Otherwise.awaits, Otherwise.awaits, TypedScript.awaits_bare]
  | elseIf line condition body otherwise =>
    rw [Otherwise.bare, Otherwise.awaits, Otherwise.awaits, tokensAwait_bare,
      TypedScript.awaits_bare, Otherwise.awaits_bare]

theorem awaits_bare (body : List Stmt) : awaits (bareBody body) = awaits body := by
  cases body with
  | nil => rfl
  | cons stmt rest =>
    obtain ⟨line, kind⟩ := stmt
    rw [bareBody, awaits, awaits, Stmt.awaits, Stmt.awaits, Kind.awaits_bare, awaits_bare]

end

theorem hoist_bare (body : List Stmt) : hoist (bareBody body) = hoist body := by
  induction body with
  | nil => rfl
  | cons stmt rest ih =>
    obtain ⟨line, kind⟩ := stmt
    cases kind with
    | function name params returns body =>
      rw [bareBody, Kind.bare, hoist, hoist, awaits_bare, ih]
    | returns value => cases value <;> exact ih
    | _ => exact ih

/-! ### The recursion -/

theorem generateExpression_only (isValue : token.isValue = true) :
    generateExpression line (.wanted none []) [token] = generateValue line token := by
  rw [generateExpression_value line _ isValue]
  funext context
  show Gen.andThen (Gen.andThen (generateValue line token) _) _ context = _
  unfold Gen.andThen
  rcases generateValue line token context with ⟨_ | value, after⟩ <;> rfl

theorem Token.ne_call (other : ¬ token.isCall = true) (base : String) (steps : List Step)
    (arguments : List (List Token)) : token ≠ .call base steps arguments := by
  rintro rfl
  exact other rfl

theorem Token.isValue_of_isCall (called : token.isCall = true) : token.isValue = true := by
  cases token <;> first | rfl | cases called

theorem Gen.map_run {α β : Type} (step : Gen α) (change : α → β) (context : Context) :
    (step >>= fun value => pure (change value)) context =
      ((step context).1.map change, (step context).2) := by
  show Gen.andThen step _ context = _
  unfold Gen.andThen
  rcases step context with ⟨_ | value, after⟩ <;> rfl

theorem Gen.bind_pure {α : Type} (step : Gen α) : (step >>= pure) = step := by
  funext context
  refine (Gen.map_run step id context).trans ?_
  rw [Option.map_id_fun, id]

section Recursion

-- Nothing is said about code, so that it does not matter which statements might be exchanged in it.
variable (other : Stmt)

include other

omit other in
theorem level_bare {quiet : Prop} {body : List Stmt} {step step' : Gen (List Target.Stmt)}
    (twins : ∀ now : Prop, Gen.Twins True now (fun _ _ _ => True) step step') :
    Gen.Twins True quiet (fun _ _ _ => True) (do hoist body; step)
      (do hoist (bareBody body); step') := by
  rw [hoist_bare]
  exact .after (hoist_paired body) fun now _ => twins now

mutual

theorem generateValue_bare (line : Nat) (token : Token) {quiet : Prop} (reported : ¬quiet) :
    Gen.Twins True quiet (ValueTwins other other false) (generateValue line token)
      (generateValue line token.bare) := by
  cases token with
  | group tokens =>
    have inner := generateExpression_bare line tokens reported (.wanted [])
    rw [Token.bare, generateValue]
    obtain ⟨token, only, isValue, same⟩ | same := Token.ofGroup_cases (bareTokens tokens)
    · rw [only, generateExpression_only isValue] at inner
      rw [same, ← Gen.bind_pure (generateValue line token)]
      exact .bind inner fun _ _ _ earlier value => .pure (.of_type (reported ∘ earlier) value.type)
    · rw [same, generateValue]
      exact .bind inner fun _ _ _ earlier value => .pure (.of_type (reported ∘ earlier) value.type)
  | access base steps =>
    rw [Token.bare, generateValue, generateValue]
    exact resolveWith_twins (alike_bareSteps steps) fun _ taken start earlier _ =>
      generateSteps_bare line false taken steps (reported ∘ earlier) (.same start)
  | call base steps arguments =>
    rw [Token.bare, generateValue, generateValue]
    refine generateCall_twins (generateArguments_bare line arguments reported) fun _ earlier =>
      callTarget_twins (alike_bareSteps steps) (absurd · Bool.false_ne_true)
        fun _ beforeLast taken start earlier' _ => ?_
    exact generateSteps_bare line beforeLast taken steps (reported ∘ earlier ∘ earlier')
      (.same start)
  | lambda params body =>
    rw [Token.bare, generateValue, generateValue]
    exact .bind (functionBody_twins fun _ _ => level_bare fun _ => generateStatements_bare false body)
      fun _ _ _ earlier _ => .pure (.of_type (reported ∘ earlier) rfl)
  | await operand =>
    have inner := generateValue_bare line operand reported
    cases called : operand.isCall with
    | true =>
      cases operand with
      | call base steps arguments =>
        rw [Token.bare, called, Bool.not_true, Bool.and_false, if_neg Bool.false_ne_true,
          Token.bare, generateValue, generateValue]
        refine .bind (generateCall_twins (generateArguments_bare line arguments reported)
          fun _ earlier => callTarget_twins (alike_bareSteps steps) (absurd · Bool.false_ne_true)
            fun _ beforeLast taken start earlier' _ => ?_) fun _ _ _ earlier value =>
          .pure (.of_type (reported ∘ earlier) value.type)
        exact generateSteps_bare line beforeLast taken steps (reported ∘ earlier ∘ earlier')
          (.same start)
      | _ => cases called
    | false =>
      rw [Token.bare, generateValue_await line (Token.ne_call (ne_true_of_eq_false called)),
        called, Bool.not_false, Bool.and_true]
      split_ifs with stripped
      · rw [generateValue_await line (by simp), generateValue,
          generateExpression_only (Token.isValue_of_isCall stripped)]
        refine .bind (?_ : Gen.Twins True quiet (ValueTwins other other false) _ _)
          fun _ _ _ earlier value => .pure (.of_type (reported ∘ earlier) value.type)
        rw [← Gen.bind_pure (generateValue line operand)]
        exact .bind inner fun _ _ _ earlier value => .pure (.of_type (reported ∘ earlier) value.type)
      · rw [generateValue_await line (Token.ne_call stripped)]
        exact .bind inner fun _ _ _ earlier value => .pure (.of_type (reported ∘ earlier) value.type)
  | operator op => exact Gen.Twins.fail
  | _ => exact Gen.Twins.pure (.same _)
termination_by structural token

/-- An expression and its bare form go the same way. -/
theorem generateExpression_bare (line : Nat) (tokens : List Token) {quiet : Prop}
    (reported : ¬quiet) {before before' : Operand}
    (operands : OperandTwins other other false quiet before before') :
    Gen.Twins True quiet (ValueTwins other other false) (generateExpression line before tokens)
      (generateExpression line before' (bareTokens tokens)) := by
  cases tokens with
  | nil =>
    rw [bareTokens, generateExpression, generateExpression]
    exact atEnd_twins operands
  | cons token rest =>
    rw [bareTokens]
    cases isValue : token.isValue with
    | true =>
      have isValue' := token.isValue_bare.trans isValue
      rw [generateExpression_value line _ isValue, generateExpression_value line _ isValue']
      exact .bind (afterValue_twins operands (generateValue_bare line token reported))
        fun _ _ _ earlier next => generateExpression_bare line rest (reported ∘ earlier) next
    | false =>
      cases token with
      | operator op =>
        rw [Token.bare, generateExpression, generateExpression]
        exact .bind (afterOperator_twins op operands) fun _ _ _ earlier next =>
          generateExpression_bare line rest (reported ∘ earlier) next
        all_goals simp
      | _ => cases isValue
termination_by structural tokens

theorem generateStep_bare (line : Nat) (step : Step) {quiet : Prop} (reported : ¬quiet)
    {receiver receiver' : Value} (same : ValueTwins other other false quiet receiver receiver') :
    Gen.Twins True quiet (ValueTwins other other false) (generateStep line receiver step)
      (generateStep line receiver' step.bare) := by
  cases step with
  | property name =>
    rw [Step.bare, generateStep, generateStep]
    exact accessMember_twins name same
  | index tokens =>
    rw [Step.bare, generateStep, generateStep]
    exact accessIndex_twins same fun _ earlier =>
      generateExpression_bare line tokens (reported ∘ earlier) (.wanted [])
termination_by structural step

theorem generateSteps_bare (line : Nat) (beforeLast : Bool) (taken : Nat) (steps : List Step)
    {quiet : Prop} (reported : ¬quiet) {receiver receiver' : Value}
    (same : ValueTwins other other false quiet receiver receiver') :
    Gen.Twins True quiet (ValueTwins other other false)
      (generateSteps line beforeLast taken receiver steps)
      (generateSteps line beforeLast taken receiver' (bareSteps steps)) := by
  cases steps with
  | nil =>
    rw [bareSteps, generateSteps, generateSteps]
    exact .pure same
  | cons step rest =>
    rw [bareSteps, generateSteps.eq_def, generateSteps.eq_def]
    dsimp only
    rw [(alike_bareSteps rest).isEmpty_eq]
    refine .ite (.pure same) ?_
    cases taken with
    | succ taken => exact generateSteps_bare line beforeLast taken rest reported same
    | zero =>
      exact .bind (generateStep_bare line step reported same) fun _ _ _ earlier next =>
        generateSteps_bare line beforeLast 0 rest (reported ∘ earlier) next
termination_by structural steps

theorem generateArguments_bare (line : Nat) (arguments : List (List Token)) {quiet : Prop}
    (reported : ¬quiet) :
    Gen.Twins True quiet (fun now => Option.Rel (ValuesTwins other other false now))
      (generateArguments line arguments) (generateArguments line (bareArguments arguments)) := by
  cases arguments with
  | nil =>
    rw [bareArguments, generateArguments]
    exact .pure (.some .nil)
  | cons tokens rest =>
    rw [bareArguments]
    exact generateArguments_cons_twins (generateExpression_bare line tokens reported (.wanted []))
      fun _ earlier => generateArguments_bare line rest (reported ∘ earlier)
termination_by structural arguments

theorem generateKind_bare (toplevel : Bool) (line : Nat) (kind : Kind) {quiet : Prop} :
    Gen.Twins True quiet (fun _ _ _ => True) (generateKind toplevel line kind)
      (generateKind toplevel line kind.bare) := by
  cases kind with
  | declare name type value constant =>
    rw [Kind.bare, generateKind, generateKind]
    exact .forget (generateDeclaration_twins fun _ reported =>
      generateExpression_bare line value reported (.wanted []))
  | modify base steps op value =>
    rw [Kind.bare, generateKind, generateKind]
    exact .forget (generateModification_twins (alike_bareSteps steps)
      (fun _ reported => resolveWith_twins (alike_bareSteps steps) fun _ taken start earlier _ =>
        generateSteps_bare line false taken steps (reported ∘ earlier) (.same start))
      fun _ reported => generateExpression_bare line value reported (.wanted []))
  | expression tokens =>
    rw [Kind.bare, generateKind, generateKind]
    exact .bind (.forget (generateExpression_bare line tokens id (.wanted []))) fun _ _ _ _ _ =>
      .pure trivial
  | call base steps arguments =>
    rw [Kind.bare, generateKind, generateKind]
    refine .bind (.forget (generateCall_twins (generateArguments_bare line arguments id)
      fun _ earlier => callTarget_twins (alike_bareSteps steps) (absurd · Bool.false_ne_true)
        fun _ beforeLast taken start earlier' _ => ?_)) fun _ _ _ _ _ => .pure trivial
    exact generateSteps_bare line beforeLast taken steps (earlier ∘ earlier') (.same start)
  | function name params returns body =>
    rw [Kind.bare, generateKind, generateKind]
    exact .after checkReturnType_paired fun _ _ => .after (reachFunction_paired name) fun _ _ =>
      .bind (functionBody_twins fun _ _ => level_bare fun _ => generateStatements_bare false body)
        fun _ _ _ _ _ => .pure trivial
  | branch condition body otherwise =>
    rw [Kind.bare, generateKind, generateKind]
    refine .bind (.forget (generateCondition_twins
      (generateExpression_bare line condition id (.wanted [])))) fun _ _ _ _ _ => ?_
    refine .bind (.inBlock fun _ _ => level_bare fun _ => generateStatements_bare false body)
      fun _ _ _ _ _ => ?_
    exact .bind (generateOtherwise_bare line otherwise) fun _ _ _ _ _ => .pure trivial
  | loop condition body =>
    rw [Kind.bare, generateKind, generateKind]
    refine .bind (.forget (generateCondition_twins
      (generateExpression_bare line condition id (.wanted [])))) fun _ _ _ _ _ => ?_
    exact .bind (.inBlock fun _ _ => level_bare fun _ => generateStatements_bare false body)
      fun _ _ _ _ _ => .pure trivial
  | imports path =>
    rw [Kind.bare, generateKind]
    exact .after generateImport_paired fun _ _ => .stop
  | returns value =>
    cases value with
    | none =>
      rw [Kind.bare, generateKind]
      have twins : Gen.Twins True quiet (Gen.IfQuiet (StmtExchanged other other false))
          (generateReturn line) (generateReturn line) := generateReturn_twins
      exact twins.forget
    | some tokens =>
      rw [Kind.bare, generateKind, generateKind]
      exact .forget (generateReturnOf_twins fun _ reported =>
        generateExpression_bare line tokens reported (.wanted []))
termination_by structural kind

theorem generateOtherwise_bare (line : Nat) (otherwise : Otherwise) {quiet : Prop} :
    Gen.Twins True quiet (fun _ _ _ => True) (generateOtherwise line otherwise)
      (generateOtherwise line otherwise.bare) := by
  cases otherwise with
  | nothing => exact .pure trivial
  | block body =>
    rw [Otherwise.bare, generateOtherwise, generateOtherwise]
    exact .bind (.inBlock fun _ _ => level_bare fun _ => generateStatements_bare false body)
      fun _ _ _ _ _ => .pure trivial
  | elseIf line condition body otherwise =>
    rw [Otherwise.bare, generateOtherwise, generateOtherwise]
    refine .bind (.forget (generateCondition_twins
      (generateExpression_bare line condition id (.wanted [])))) fun _ _ _ _ _ => ?_
    refine .bind (.inBlock fun _ _ => level_bare fun _ => generateStatements_bare false body)
      fun _ _ _ _ _ => ?_
    exact .bind (generateOtherwise_bare line otherwise) fun _ _ _ _ _ => .pure trivial
termination_by structural otherwise

theorem generateStatements_bare (toplevel : Bool) (body : List Stmt) {quiet : Prop} :
    Gen.Twins True quiet (fun _ _ _ => True) (generateStatements toplevel body)
      (generateStatements toplevel (bareBody body)) := by
  cases body with
  | nil => exact .pure trivial
  | cons stmt rest =>
    obtain ⟨line, kind⟩ := stmt
    rw [bareBody, generateStatements, generateStatements, generateStatement, generateStatement]
    exact .bind (generateKind_bare toplevel line kind).attempted fun _ _ _ _ _ =>
      .bind (generateStatements_bare toplevel rest) fun _ _ _ _ _ => .pure trivial
termination_by structural body

end

end Recursion

theorem Gen.Twins.same_after {α β : Type} {quiet : Prop} {related : Prop → α → β → Prop}
    {step : Gen α} {step' : Gen β} (twins : Gen.Twins True quiet related step step')
    (keeps : Gen.Keeps Context.SamePlace step) (keeps' : Gen.Keeps Context.SamePlace step')
    (context : Context) : (step' context).2 = (step context).2 := by
  obtain ⟨added, together, -⟩ := twins context context (refl context)
  obtain ⟨added', reported, -, inOrder⟩ := together.reordered
  have diagnostics : (step' context).2.diagnostics = (step context).2.diagnostics := by
    rw [reported, inOrder trivial, together.diagnostics]
  have helpers : (step' context).2.helpers = (step context).2.helpers :=
    together.inOrder trivial rfl
  obtain ⟨load, imports, scopes, returns, indent, -, -⟩ := keeps context
  obtain ⟨load', imports', scopes', returns', indent', -, -⟩ := keeps' context
  exact (Context.mk.injEq ..).mpr ⟨load'.trans load.symm, imports'.trans imports.symm, diagnostics,
    scopes'.trans scopes.symm, returns'.trans returns.symm, helpers, indent'.trans indent.symm⟩

theorem generateTokens_bare (line : Nat) (tokens : List Token) (context : Context) :
    (generateTokens (bareTokens tokens) line context).2 = (generateTokens tokens line context).2 ∧
      (generateTokens (bareTokens tokens) line context).1.map Value.type =
        (generateTokens tokens line context).1.map Value.type := by
  have twins := generateExpression_bare (.mk line (.returns none)) line tokens id (.wanted [])
  have keeps (tokens : List Token) : Gen.Keeps Context.SamePlace (generateTokens tokens line) :=
    generateExpression_keeps line (.wanted none []) tokens
  refine ⟨twins.same_after (keeps tokens) (keeps (bareTokens tokens)) context, ?_⟩
  obtain ⟨_, -, results⟩ := twins context context (refl context)
  unfold generateTokens
  generalize (generateExpression line _ tokens context).1 = value?,
    (generateExpression line _ (bareTokens tokens) context).1 = value?' at results
  cases results with
  | none => rfl
  | some same => exact congrArg some same.type

/-- A call gives the same diagnostics whether it is awaited or not, and its type or `any`. -/
theorem generateCall_unawaited (arguments : Gen (Option (List Value))) (target : Gen CallTarget)
    (context : Context) :
    let awaited := generateCall true line arguments target context
    let plain := generateCall false line arguments target context
    plain.2 = awaited.2 ∧ (plain.1.map Value.type = awaited.1.map Value.type ∨
      plain.1.map Value.type = some .any) := by
  simp only [generateCall, bind, Gen.andThen]
  rcases arguments context with ⟨_ | values?, middle⟩
  · exact ⟨rfl, .inl rfl⟩
  · dsimp only
    rcases target middle with ⟨_ | target, last⟩
    · exact ⟨rfl, .inl rfl⟩
    · dsimp only
      cases values? with
      | none => exact ⟨rfl, .inl rfl⟩
      | some values =>
        cases target with
        | unchecked code => exact ⟨rfl, .inl rfl⟩
        | checked code receiver params variadic returns async =>
          simp only [CallTarget.call, bind, Gen.andThen]
          rcases Gen.reportAll line _ last with ⟨_ | _, after⟩
          · exact ⟨rfl, .inl rfl⟩
          · cases async with
            | true => exact ⟨rfl, .inr rfl⟩
            | false => exact ⟨rfl, .inl rfl⟩

/-- **Parentheses around single values make no difference** to the type of an expression and to what
is reported: they are no part of its bare form, on which both depend. Around a call that is awaited
they stay, and there the type may become `any`. -/
theorem parentheses_transparent (line : Nat) (context : Context) :
    (∀ tokens tokens' : List Token, bareTokens tokens' = bareTokens tokens →
      (generateTokens tokens' line context).2 = (generateTokens tokens line context).2 ∧
        (generateTokens tokens' line context).1.map Value.type =
          (generateTokens tokens line context).1.map Value.type) ∧
    (∀ token : Token, token.isValue = true → (Token.group [token]).bare = token.bare) ∧
    ∀ base steps arguments,
      let awaited := generateValue line (.await (.call base steps arguments)) context
      let grouped := generateValue line (.await (.group [.call base steps arguments])) context
      grouped.2 = awaited.2 ∧ (grouped.1.map Value.type = awaited.1.map Value.type ∨
        grouped.1.map Value.type = some .any) := by
  refine ⟨fun tokens tokens' same => ?_, fun _ => Token.bare_group, fun base steps arguments => ?_⟩
  · obtain ⟨after, types⟩ := generateTokens_bare line tokens context
    obtain ⟨after', types'⟩ := generateTokens_bare line tokens' context
    rw [same] at after' types'
    exact ⟨after'.symm.trans after, types'.symm.trans types⟩
  · rw [@generateValue_await line (.group [.call base steps arguments]) (by simp), generateValue,
      generateValue, generateExpression_only rfl, generateValue]
    rw [Gen.map_run, Gen.map_run, Gen.map_run]
    obtain ⟨after, types⟩ := generateCall_unawaited _ _ context
    dsimp only
    rw [Option.map_map, Option.map_map, Option.map_map]
    exact ⟨after, types⟩

/-- Parentheses around an operand, a call, its argument, an index, what is awaited there, and a value
in a lambda. -/
theorem parentheses_transparent_nested :
    let context := (Context.start fun _ => .error .missingSemicolon).declare
      ⟨"f", .value (.arrayOf .func), false⟩
    let body (value : Token) := [Stmt.mk 2 (.returns (some [value]))]
    let tokens := [.text "k", .operator .add,
      .call "f" [.index [.await .null]] [[.lambda [] (body (.bool true))]]]
    let tokens' := [.group [.text "k"], .operator .add, .group [.call "f"
      [.index [.group [.await (.group [.null])]]] [[.lambda [] (body (.group [.bool true]))]]]]
    bareTokens tokens' = bareTokens tokens ∧
      (generateTokens tokens' 1 context).2 = (generateTokens tokens 1 context).2 ∧
      (generateTokens tokens' 1 context).1.map Value.type =
        (generateTokens tokens 1 context).1.map Value.type ∧
      (generateTokens tokens 1 context).1.map Value.type = some .any := by
  intro context body tokens tokens'
  have same : bareTokens tokens' = bareTokens tokens := rfl
  obtain ⟨after, types⟩ := (parentheses_transparent 1 context).1 tokens tokens' same
  exact ⟨same, after, types, by decide +kernel⟩

/-- **A promise in parentheses stays a promise**: the string that an asynchronous function returns can
be declared as a number if the call that is awaited stands in parentheses. -/
theorem awaited_type_lost :
    let load := fun _ => .error .missingSemicolon
    let function := "func string f() \x7b\nawait null;\nreturn \"a\";\n\x7d\n"
    (compileSource load true (function ++ "number n = await f();")).diagnostics =
        [⟨.typeMismatch "number" "string", 5⟩] ∧
      (compileSource load true (function ++ "number n = await (f());")).diagnostics = [] := by
  decide +kernel

end TypedScript
