/-
**Neighbouring functions commute.** Two functions with different names that stand one after the
other in a block, at any depth of a script, may be exchanged: the same is reported, in some order,
and if nothing is reported, the two are exchanged in the generated program and the rest of it is
the same.

The proof runs the generation of both scripts side by side. It reads a context only through the
names that are declared (`Context.Matches`), and a function leaves a place that matches the one
before its statement, so that the two functions are generated from matching places in either order.

* `generateExpression_twins`, `generateStatements_twins`: everything around them.
-/

import TypedScript.Proofs.Exchange.Statements

set_option linter.unusedSectionVars false

namespace TypedScript

/-! ### The parts of scripts -/

section Parts

variable {first second : Stmt} {found : Bool} {quiet : Prop} {line : Nat}

theorem StepsExchanged.alike {steps steps' : List Step}
    (exchanged : StepsExchanged first second found steps steps') : StepsAlike steps steps' := by
  induction steps generalizing found steps' with
  | nil =>
    cases exchanged
    exact .nil
  | cons step rest ih =>
    cases exchanged with
    | cons head tail =>
      refine .cons ?_ (ih tail)
      cases head with
      | property name => exact .property name
      | index => exact .index ..

theorem StepsExchanged.indexed {steps steps' : List Step}
    (exchanged : StepsExchanged first second found steps steps') (exchanges : found = true) :
    ∃ tokens, Step.index tokens ∈ steps := by
  induction steps generalizing found steps' with
  | nil =>
    cases exchanged
    contradiction
  | cons step rest ih =>
    cases exchanged with
    | cons head tail =>
      cases head with
      | property name =>
        obtain ⟨tokens, found⟩ := ih tail exchanges
        exact ⟨tokens, .tail _ found⟩
      | index => exact ⟨_, .head _⟩

theorem TokenExchanged.isValue_eq {token token' : Token}
    (exchanged : TokenExchanged first second found token token') :
    token'.isValue = token.isValue := by
  cases exchanged <;> rfl

theorem await_twins {operand operand' : Token}
    (plain : ∀ base steps arguments, operand ≠ .call base steps arguments)
    (awaited : TokenExchanged first second found operand operand')
    (twins : Gen.Twins False quiet (ValueTwins first second found) (generateValue line operand)
      (generateValue line operand')) :
    Gen.Twins False quiet (ValueTwins first second found) (generateValue line (.await operand))
      (generateValue line (.await operand')) := by
  have plain' : ∀ base steps arguments, operand' ≠ .call base steps arguments := by
    cases awaited with
    | call => exact absurd rfl (plain _ _ _)
    | plain => exact plain
    | _ =>
      intro _ _ _ same
      contradiction
  rw [generateValue_await line plain, generateValue_await line plain']
  exact .bind twins fun _ _ _ _ value => .pure ⟨value.type, fun quiet => (value.code quiet).await⟩

end Parts

/-! ### Statements of a block -/

section Blocks

variable {first second : Stmt} {name name' : String} {found found' : Bool} {toplevel : Bool}
  {quiet : Prop} {rest rest' : List Stmt}

theorem generateStatements_cons_twins {line : Nat} {kind kind' : Kind}
    (head : KindExchanged first second found kind kind')
    (twins : Gen.Twins False quiet (Gen.IfQuiet (StmtExchanged first second found))
      (generateKind toplevel line kind) (generateKind toplevel line kind'))
    (others : ∀ now : Prop, Gen.Twins False now (Gen.IfQuiet (LinesExchanged first second found'))
      (generateStatements toplevel rest) (generateStatements toplevel rest')) :
    Gen.Twins False quiet (Gen.IfQuiet (LinesExchanged first second (found || found')))
      (generateStatements toplevel (.mk line kind :: rest))
      (generateStatements toplevel (.mk line kind' :: rest')) := by
  rw [generateStatements, generateStatements, generateStatement, generateStatement]
  cases isImport : kind.isImport with
  | true =>
    cases head with
    | imports path =>
      rw [generateKind]
      refine .bind (.attempt_stop generateImport_paired) fun now _ _ _ none => ?_
      obtain ⟨rfl, rfl⟩ := none
      exact .bind (others now) fun _ _ _ _ code => .pure code
    | _ => contradiction
  | false =>
    have delivers : Gen.Delivers True (generateKind toplevel line kind) (KindCode kind) :=
      (generateKind_code toplevel line kind).weaken (fun _ => isImport) fun _ _ emitted => emitted
    refine .bind (twins.attempt delivers) fun now code? code?' _ code => ?_
    refine .bind (others now) fun _ _ _ earlier codes => .pure fun quiet => ?_
    obtain ⟨code, delivered⟩ := code
    obtain ⟨_, rfl, _⟩ := delivered (earlier quiet)
    cases code with
    | some code => exact (code (earlier quiet)).lines.append (codes quiet)

theorem Gen.bind_assoc {α β γ : Type} (step : Gen α) (next : α → Gen β) (last : β → Gen γ) :
    (step >>= next) >>= last = step >>= fun value => next value >>= last := by
  funext context
  show (step.andThen next).andThen last context = step.andThen _ context
  unfold Gen.andThen
  rcases step context with ⟨_ | _, _⟩ <;> rfl

theorem generateStatement_keeps_matched {stmt : Stmt} (declares : stmt.kind.function? = some name) :
    Gen.Keeps Context.Matches (generateStatement toplevel stmt) := by
  obtain ⟨line, kind⟩ := stmt
  cases kind with
  | function name params returns body =>
    rw [generateStatement, generateKind]
    have inside : Gen.Keeps Context.SamePlace (functionBody params returns line (do
        hoist body
        generateStatements false body)) :=
      functionBody_keeps (level_keeps (generateStatements_keeps body))
    exact .bind checkReturnType_keeps.matched fun _ =>
      .bind (reachFunction_keeps_matched name) fun _ => .bind inside.matched fun _ => .pure
  | _ => contradiction

/-- The two functions in either order. -/
theorem generateStatements_exchange (declares : first.kind.function? = some name)
    (declares' : second.kind.function? = some name')
    (twins : ∀ now : Prop, Gen.Twins False now (Gen.IfQuiet (StmtExchanged first second false))
      (generateStatement toplevel first) (generateStatement toplevel first))
    (twins' : ∀ now : Prop, Gen.Twins False now (Gen.IfQuiet (StmtExchanged first second false))
      (generateStatement toplevel second) (generateStatement toplevel second))
    (others : ∀ now : Prop, Gen.Twins False now (Gen.IfQuiet (LinesExchanged first second found))
      (generateStatements toplevel rest) (generateStatements toplevel rest')) :
    Gen.Twins False quiet (Gen.IfQuiet (LinesExchanged first second true))
      (generateStatements toplevel (first :: second :: rest))
      (generateStatements toplevel (second :: first :: rest')) := by
  have pair (stmt stmt' : Stmt) (rest : List Stmt) :
      generateStatements toplevel (stmt :: stmt' :: rest) = (do
        let code? ← (generateStatement toplevel stmt).attempt
        let code?' ← (generateStatement toplevel stmt').attempt
        let others ← generateStatements toplevel rest
        return code?.toList ++ (code?'.toList ++ others)) := by
    rw [generateStatements, generateStatements]
    simp only [Gen.bind_assoc]
    rfl
  have delivers {stmt : Stmt} {name : String} (declares : stmt.kind.function? = some name) :
      Gen.Delivers True (generateStatement toplevel stmt) (KindCode stmt.kind) := by
    obtain ⟨line, kind⟩ := stmt
    rw [generateStatement]
    refine (generateKind_code toplevel line kind).weaken (fun _ => ?_) fun _ _ emitted => emitted
    cases kind with
    | imports => contradiction
    | _ => rfl
  rw [pair, pair]
  refine .exchange ((twins quiet).attempt (delivers declares))
    (fun now => (twins' now).attempt (delivers declares'))
    (generateStatement_keeps_matched declares) (generateStatement_keeps_matched declares')
    fun now _ code? code?' other? other?' earlier ⟨code, made⟩ ⟨other, made'⟩ => ?_
  refine .bind (others now) fun _ _ _ later behind => .pure fun quiet => ?_
  obtain ⟨_, rfl, emitted⟩ := made (earlier (later quiet))
  obtain ⟨_, rfl, emitted'⟩ := made' (later quiet)
  cases code with
  | some same =>
    cases other with
    | some same' =>
      exact (LinesExchanged.exchange emitted emitted' (same (earlier (later quiet)))
        (same' (later quiet))).append (behind quiet)

theorem level_twins {block block' : List Stmt} {step step' : Gen (List Target.Stmt)}
    (declares : first.kind.function? = some name) (declares' : second.kind.function? = some name')
    (distinct : name ≠ name') (exchanged : BlockExchanged first second found block block')
    (twins : ∀ now : Prop,
      Gen.Twins False now (Gen.IfQuiet (LinesExchanged first second found)) step step') :
    Gen.Twins False quiet (Gen.IfQuiet (LinesExchanged first second found)) (do hoist block; step)
      (do hoist block'; step') :=
  .after (hoist_twins declares declares' distinct exchanged) fun now _ => twins now

/-- A block starts with the same statement in both scripts or with the two functions. -/
theorem BlockExchanged.cons_cases {line : Nat} {kind : Kind} {block' : List Stmt}
    (exchanged : BlockExchanged first second found (.mk line kind :: rest) block') :
    (∃ mark mark' kind' rest', found = (mark || mark') ∧ block' = .mk line kind' :: rest' ∧
      KindExchanged first second mark kind kind' ∧ BlockExchanged first second mark' rest rest') ∨
    ∃ mark others others', found = true ∧ .mk line kind = first ∧ rest = second :: others ∧
      block' = second :: first :: others' ∧ BlockExchanged first second mark others others' := by
  cases exchanged with
  | cons head tail => exact .inl ⟨_, _, _, _, rfl, rfl, head, tail⟩
  | exchange tail => exact .inr ⟨_, _, _, rfl, rfl, rfl, rfl, tail⟩

end Blocks

/-! ### The recursion -/

section Recursion

variable {first second : Stmt} {name name' : String} (declares : first.kind.function? = some name)
  (declares' : second.kind.function? = some name') (distinct : name ≠ name')

include declares declares' distinct

mutual

-- The recursion is on the first script, not on how the second one differs from it: where the two
-- functions are exchanged, each of them is compared with itself.
theorem generateValue_twins (line : Nat) (token : Token) {found : Bool} {quiet : Prop}
    {token' : Token} (exchanged : TokenExchanged first second found token token') :
    Gen.Twins False quiet (ValueTwins first second found) (generateValue line token)
      (generateValue line token') := by
  cases token with
  | operator op =>
    cases exchanged
    rw [generateValue]
    exact .fail
  | group tokens =>
    cases exchanged with
    | plain isPlain => exact absurd isPlain Bool.false_ne_true
    | group inner =>
      rw [generateValue, generateValue]
      refine .bind (generateExpression_twins line tokens (.wanted []) inner)
        fun _ _ _ _ value => ?_
      exact .pure ⟨value.type, fun quiet => (value.code quiet).group⟩
  | access base steps =>
    cases exchanged with
    | plain isPlain => exact absurd isPlain Bool.false_ne_true
    | access taken =>
      rw [generateValue, generateValue]
      refine resolveWith_twins taken.alike fun _ count start _ startTakes => ?_
      exact generateSteps_twins line false count steps (.same start) taken (.all startTakes)
  | call base steps arguments =>
    cases exchanged with
    | plain isPlain => exact absurd isPlain Bool.false_ne_true
    | call taken values =>
      rw [generateValue, generateValue]
      refine generateCall_twins (generateArguments_twins line arguments values) fun _ _ =>
        callTarget_twins taken.alike taken.indexed fun _ beforeLast count start _ walks => ?_
      exact generateSteps_twins line beforeLast count steps (.same start) taken walks
  | lambda params body =>
    cases exchanged with
    | plain isPlain => exact absurd isPlain Bool.false_ne_true
    | lambda block =>
      rw [generateValue, generateValue, block.awaits_eq]
      refine .bind (functionBody_twins fun _ _ => level_twins declares declares' distinct block
        fun _ => generateStatements_twins false body block) fun _ _ _ _ code => ?_
      exact .pure ⟨rfl, fun quiet => .arrow (code quiet) _ _⟩
  | await operand =>
    cases exchanged with
    | plain isPlain => exact absurd isPlain Bool.false_ne_true
    | await awaited =>
      cases operand with
      | call base steps arguments =>
        cases awaited with
        | plain isPlain => exact absurd isPlain Bool.false_ne_true
        | call taken values =>
          rw [generateValue, generateValue]
          refine .bind (generateCall_twins (generateArguments_twins line arguments values)
            fun _ _ => callTarget_twins taken.alike taken.indexed
              fun _ beforeLast count start _ walks => ?_)
            fun _ _ _ _ value => .pure ⟨value.type, fun quiet => (value.code quiet).await⟩
          exact generateSteps_twins line beforeLast count steps (.same start) taken walks
      | _ =>
        refine await_twins (fun _ _ _ same => ?_) awaited (generateValue_twins line _ awaited)
        contradiction
  | _ =>
    cases exchanged
    rw [generateValue]
    exact .pure (.same _)
termination_by structural token

theorem generateExpression_twins (line : Nat) (tokens : List Token) {found mark : Bool}
    {quiet : Prop} {before before' : Operand} {tokens' : List Token}
    (operands : OperandTwins first second found quiet before before')
    (exchanged : TokensExchanged first second mark tokens tokens') :
    Gen.Twins False quiet (ValueTwins first second (found || mark))
      (generateExpression line before tokens) (generateExpression line before' tokens') := by
  cases tokens with
  | nil =>
    cases exchanged
    rw [generateExpression, generateExpression, Bool.or_false]
    exact atEnd_twins operands
  | cons token rest =>
    cases exchanged with
    | cons head tail =>
      cases isValue : token.isValue with
      | true =>
        rw [generateExpression_value line before isValue,
          generateExpression_value line before' (head.isValue_eq.trans isValue), ← Bool.or_assoc]
        exact .bind (afterValue_twins operands (generateValue_twins line token head))
          fun _ _ _ _ next => generateExpression_twins line rest next tail
      | false =>
        cases token with
        | operator op =>
          cases head
          rw [generateExpression, generateExpression]
          exact .bind (afterOperator_twins op operands) fun _ _ _ _ next =>
            generateExpression_twins line rest next tail
        | _ => contradiction
termination_by structural tokens

theorem generateStep_twins (line : Nat) (step : Step) {found mark : Bool} {quiet : Prop}
    {receiver receiver' : Value} {step' : Step}
    (receivers : ValueTwins first second found quiet receiver receiver')
    (exchanged : StepExchanged first second mark step step') :
    Gen.Twins False quiet (ValueTwins first second (found || mark))
      (generateStep line receiver step) (generateStep line receiver' step') := by
  cases step with
  | property name =>
    cases exchanged
    rw [generateStep, generateStep, Bool.or_false]
    exact accessMember_twins name receivers
  | index tokens =>
    cases exchanged with
    | index inner =>
      rw [generateStep, generateStep]
      exact accessIndex_twins receivers fun _ _ =>
        generateExpression_twins line tokens (.wanted []) inner
termination_by structural step

theorem generateSteps_twins (line : Nat) (beforeLast : Bool) (taken : Nat) (steps : List Step)
    {found mark : Bool} {quiet : Prop} {receiver receiver' : Value} {steps' : List Step}
    (receivers : ValueTwins first second found quiet receiver receiver')
    (exchanged : StepsExchanged first second mark steps steps')
    (walks : WalksUpTo beforeLast taken steps) :
    Gen.Twins False quiet (ValueTwins first second (found || mark))
      (generateSteps line beforeLast taken receiver steps)
      (generateSteps line beforeLast taken receiver' steps') := by
  cases steps with
  | nil =>
    cases exchanged
    rw [generateSteps, generateSteps, Bool.or_false]
    exact .pure receivers
  | cons step rest =>
    cases exchanged with
    | cons head tail =>
      rw [generateSteps.eq_def, generateSteps.eq_def]
      dsimp only
      rw [tail.alike.isEmpty_eq]
      cases ends : beforeLast && rest.isEmpty with
      | true =>
        obtain ⟨name, rfl, rfl⟩ := walks.ends ends
        cases head
        cases tail
        rw [Bool.or_false, Bool.or_false]
        exact .pure receivers
      | false =>
        rcases walks.starts with rfl | ⟨rfl, name, rfl⟩
        · rw [← Bool.or_assoc]
          exact .bind (generateStep_twins line step receivers head) fun _ _ _ _ next =>
            generateSteps_twins line beforeLast 0 rest next tail (walks.tail ends)
        · cases head
          exact generateSteps_twins line beforeLast 0 rest receivers tail (walks.tail ends)
termination_by structural steps

theorem generateArguments_twins (line : Nat) (arguments : List (List Token)) {mark : Bool}
    {quiet : Prop} {arguments' : List (List Token)}
    (exchanged : ArgumentsExchanged first second mark arguments arguments') :
    Gen.Twins False quiet (fun now => Option.Rel (ValuesTwins first second mark now))
      (generateArguments line arguments) (generateArguments line arguments') := by
  cases arguments with
  | nil =>
    cases exchanged
    rw [generateArguments]
    exact .pure (.some .nil)
  | cons tokens rest =>
    cases exchanged with
    | cons head tail =>
      exact generateArguments_cons_twins (generateExpression_twins line tokens (.wanted []) head)
        fun _ _ => generateArguments_twins line rest tail
termination_by structural arguments

theorem generateKind_twins (toplevel : Bool) (line : Nat) (kind : Kind) {found : Bool}
    {quiet : Prop} {kind' : Kind} (exchanged : KindExchanged first second found kind kind') :
    Gen.Twins False quiet (Gen.IfQuiet (StmtExchanged first second found))
      (generateKind toplevel line kind) (generateKind toplevel line kind') := by
  cases kind with
  | declare name type value constant =>
    cases exchanged with
    | declare inner =>
      rw [generateKind, generateKind]
      exact generateDeclaration_twins fun _ _ =>
        generateExpression_twins line value (.wanted []) inner
  | modify base steps op value =>
    cases exchanged with
    | modify taken inner =>
      rw [generateKind, generateKind]
      refine generateModification_twins taken.alike
        (fun _ _ => resolveWith_twins taken.alike fun _ count start _ startTakes => ?_)
        fun _ _ => generateExpression_twins line value (.wanted []) inner
      exact generateSteps_twins line false count steps (.same start) taken (.all startTakes)
  | expression tokens =>
    cases exchanged with
    | expression inner =>
      rw [generateKind, generateKind]
      exact .bind (generateExpression_twins line tokens (.wanted []) inner) fun _ _ _ _ value =>
        .pure fun quiet => .evaluate (value.code quiet)
  | call base steps arguments =>
    cases exchanged with
    | call taken values =>
      rw [generateKind, generateKind]
      refine .bind (generateCall_twins (generateArguments_twins line arguments values)
        fun _ _ => callTarget_twins taken.alike taken.indexed
          fun _ beforeLast count start _ walks => ?_)
        fun _ _ _ _ value => .pure fun quiet => .evaluate (value.code quiet)
      exact generateSteps_twins line beforeLast count steps (.same start) taken walks
  | function name params returns body =>
    cases exchanged with
    | function block =>
      rw [generateKind, generateKind, block.awaits_eq]
      refine .after checkReturnType_paired fun _ _ => .after (reachFunction_paired name) fun _ _ =>
        .bind (functionBody_twins fun _ _ => level_twins declares declares' distinct block
          fun _ => generateStatements_twins false body block) fun _ _ _ _ code => ?_
      exact .pure fun quiet => .function (code quiet) _ _ _
  | branch condition body otherwise =>
    cases exchanged with
    | branch tested block others =>
      rw [generateKind, generateKind]
      refine .bind (generateCondition_twins
        (generateExpression_twins line condition (.wanted []) tested)) fun _ _ _ _ test => ?_
      refine .bind (.inBlock fun _ _ => level_twins declares declares' distinct block
        fun _ => generateStatements_twins false body block) fun _ _ _ earlier code => ?_
      refine .bind (generateOtherwise_twins line otherwise others) fun _ _ _ later rest => ?_
      exact .pure fun quiet =>
        .branch (test (earlier (later quiet))) (code (later quiet)) (rest quiet)
  | loop condition body =>
    cases exchanged with
    | loop tested block =>
      rw [generateKind, generateKind]
      refine .bind (generateCondition_twins
        (generateExpression_twins line condition (.wanted []) tested)) fun _ _ _ _ test => ?_
      refine .bind (.inBlock fun _ _ => level_twins declares declares' distinct block
        fun _ => generateStatements_twins false body block) fun _ _ _ earlier code => ?_
      exact .pure fun quiet => .loop (test (earlier quiet)) (code quiet)
  | imports path =>
    cases exchanged
    rw [generateKind]
    exact .after generateImport_paired fun _ _ => .stop
  | returns value? =>
    cases value? with
    | none =>
      cases exchanged
      rw [generateKind]
      exact generateReturn_twins
    | some tokens =>
      cases exchanged with
      | returnsValue inner =>
        rw [generateKind, generateKind]
        exact generateReturnOf_twins fun _ _ =>
          generateExpression_twins line tokens (.wanted []) inner
termination_by structural kind

theorem generateOtherwise_twins (line : Nat) (otherwise : Otherwise) {found : Bool}
    {quiet : Prop} {otherwise' : Otherwise}
    (exchanged : OtherwiseExchanged first second found otherwise otherwise') :
    Gen.Twins False quiet (Gen.IfQuiet (AlternativeExchanged first second found))
      (generateOtherwise line otherwise) (generateOtherwise line otherwise') := by
  cases otherwise with
  | nothing =>
    cases exchanged
    rw [generateOtherwise]
    exact .pure fun _ _ => .same _
  | block body =>
    cases exchanged with
    | block block =>
      rw [generateOtherwise, generateOtherwise]
      exact .bind (.inBlock fun _ _ => level_twins declares declares' distinct block
        fun _ => generateStatements_twins false body block) fun _ _ _ _ code =>
          .pure fun quiet => .block (code quiet)
  | elseIf line condition body otherwise =>
    cases exchanged with
    | elseIf tested block others =>
      rw [generateOtherwise, generateOtherwise]
      refine .bind (generateCondition_twins
        (generateExpression_twins line condition (.wanted []) tested)) fun _ _ _ _ test => ?_
      refine .bind (.inBlock fun _ _ => level_twins declares declares' distinct block
        fun _ => generateStatements_twins false body block) fun _ _ _ earlier code => ?_
      refine .bind (generateOtherwise_twins line otherwise others) fun _ _ _ later rest => ?_
      exact .pure fun quiet =>
        .elseIf (test (earlier (later quiet))) (code (later quiet)) (rest quiet)
termination_by structural otherwise

theorem generateStatements_twins (toplevel : Bool) (block : List Stmt) {found : Bool}
    {quiet : Prop} {block' : List Stmt}
    (exchanged : BlockExchanged first second found block block') :
    Gen.Twins False quiet (Gen.IfQuiet (LinesExchanged first second found))
      (generateStatements toplevel block) (generateStatements toplevel block') := by
  cases block with
  | nil =>
    cases exchanged
    rw [generateStatements]
    exact .pure fun _ => .same _
  | cons stmt rest =>
    cases stmt with
    | mk line kind =>
      rcases exchanged.cons_cases with ⟨_, _, _, _, rfl, rfl, head, tail⟩ |
        ⟨_, others, _, rfl, start, behind, rfl, tail⟩
      · exact generateStatements_cons_twins head (generateKind_twins toplevel line kind head)
          fun _ => generateStatements_twins toplevel rest tail
      · cases rest with
        | nil => contradiction
        | cons stmt rest =>
          cases stmt with
          | mk line' kind' =>
            obtain ⟨start', behind⟩ := List.cons.inj behind
            rw [start, start']
            refine generateStatements_exchange declares declares' (fun now => ?_) (fun now => ?_)
              fun _ => generateStatements_twins toplevel rest (behind ▸ tail)
            · have twins : Gen.Twins False now _ _ _ :=
                generateKind_twins toplevel line kind (.refl kind)
              rwa [← generateStatement, start] at twins
            · have twins : Gen.Twins False now _ _ _ :=
                generateKind_twins toplevel line' kind' (.refl kind')
              rwa [← generateStatement, start'] at twins
termination_by structural block

end

end Recursion

/-! ### Scripts -/

/-- What is reported about a script, but for what the check of its program reports. -/
def Compiled.beforeCheck (compiled : Compiled) : List Diagnostic :=
  compiled.diagnostics.filter fun diagnostic => diagnostic.cause.category != .output

section Compiling

variable (load : String → Except Cause Module) (check : Bool) (script : List Stmt)

/-- The check of a program reports something only if nothing else is reported. -/
theorem compile_diagnostics_cases :
    (compile load check script).diagnostics =
      (generateLevel true script (.start load)).2.diagnostics ∨
    check = true ∧ (generateLevel true script (.start load)).2.diagnostics = [] ∧
      ∃ message line, (compile load check script).diagnostics = [⟨.outputCheck message, line⟩] := by
  rcases outcome : generateLevel true script (.start load) with ⟨body?, last⟩
  by_cases quiet : last.diagnostics = []
  · unfold compile
    rw [outcome]
    dsimp only
    rw [quiet, if_neg (by decide)]
    cases check with
    | false => exact .inl rfl
    | true =>
      unfold checkProgram
      cases Target.faultLine? (assemble last.imports last.helpers (body?.getD []) last.indent).toList
        with
      | none => exact .inl rfl
      | some line => exact .inr ⟨rfl, rfl, _, line, rfl⟩
  · exact .inl (by simp [compile, outcome, quiet])

theorem compile_unchecked_diagnostics :
    (compile load false script).diagnostics =
      (generateLevel true script (.start load)).2.diagnostics := by
  rcases compile_diagnostics_cases load false script with same | ⟨checked, _⟩
  · exact same
  · contradiction

theorem compile_beforeCheck :
    (compile load check script).beforeCheck =
      (compile load false script).beforeCheck := by
  unfold Compiled.beforeCheck
  rw [compile_unchecked_diagnostics]
  rcases compile_diagnostics_cases load check script with same | ⟨_, quiet, _, _, reported⟩
  · rw [same]
  · rw [reported, quiet]
    rfl

/-- If nothing else is reported, the check of the program decides. -/
theorem compile_checked_iff {load : String → Except Cause Module} {script : List Stmt}
    {imports : List Module} {helpers : List Helper} {body : List Target.Stmt}
    (run : (generateLevel true script (.start load)).1 = some body)
    (quiet : (generateLevel true script (.start load)).2.diagnostics = [])
    (imported : (generateLevel true script (.start load)).2.imports = imports)
    (used : (generateLevel true script (.start load)).2.helpers = helpers) :
    (compile load true script).diagnostics = [] ↔
      Target.faultLine? (assemble imports helpers body).toList = none := by
  subst imported used
  rcases outcome : generateLevel true script (.start load) with ⟨body?, last⟩
  rw [outcome] at run quiet
  obtain rfl : body? = some body := run
  unfold compile
  rw [outcome]
  dsimp only at quiet ⊢
  rw [quiet, if_neg (by decide), indent_of_run outcome]
  unfold checkProgram
  cases faulty : Target.faultLine? (assemble last.imports last.helpers body).toList with
  | none | some => simp [faulty]

end Compiling

/-- Only which helpers are in use matters. -/
theorem Helper.definitions_congr {used used' : List Helper}
    (same : ∀ helper, helper ∈ used' ↔ helper ∈ used) :
    Helper.definitions used' = Helper.definitions used := by
  have contains : used'.contains = used.contains := by
    funext helper
    rw [Bool.eq_iff_iff, List.contains_iff_mem, List.contains_iff_mem, same]
  unfold Helper.definitions
  rw [contains]

section Commuting

variable {first second : Stmt} {name name' : String} {script script' : List Stmt}

/-- **Neighbouring functions commute.** Exchanging two functions with different names, wherever they
stand one after the other in a script, changes the order of what is reported and nothing else,
but for what the check of the generated program finds. If nothing is reported, they are exchanged
in the generated program, and the rest of it is the same. -/
theorem functions_commute (load : String → Except Cause Module) (check : Bool)
    (declares : first.kind.function? = some name) (declares' : second.kind.function? = some name')
    (distinct : name ≠ name') (exchanged : BlockExchanged first second true script script') :
    (compile load false script).diagnostics.Perm (compile load false script').diagnostics ∧
    (compile load check script).beforeCheck.Perm (compile load check script').beforeCheck ∧
    ((compile load check script).diagnostics = [] → (compile load check script').diagnostics = [] →
      TextExchanged first second true (compile load check script).code
        (compile load check script').code) := by
  have level : Gen.Twins False True (Gen.IfQuiet (LinesExchanged first second true))
      (generateLevel true script) (generateLevel true script') :=
    level_twins declares declares' distinct exchanged fun _ =>
      generateStatements_twins declares declares' distinct true script exchanged
  obtain ⟨added, together, results⟩ := level (.start load) (.start load) (refl _)
  obtain ⟨added', reported, same, -⟩ := together.reordered
  obtain ⟨used, uses, uses'⟩ := together.helpers
  have matched := together.matched
  have unchecked : (compile load false script).diagnostics.Perm
      (compile load false script').diagnostics := by
    rw [compile_unchecked_diagnostics, compile_unchecked_diagnostics, together.diagnostics,
      reported]
    exact same.append_left []
  refine ⟨unchecked, ?_, fun accepted accepted' => ?_⟩
  · rw [compile_beforeCheck load check script, compile_beforeCheck load check script']
    exact unchecked.filter _
  · obtain ⟨_, body, last, _, -, run, -, quiet, -, -, code⟩ := compile_made accepted
    obtain ⟨_, body', last', _, -, run', -, quiet', -, -, code'⟩ := compile_made accepted'
    rw [run, run'] at together results matched
    rw [run] at uses
    rw [run'] at uses'
    have nothing : added = [] :=
      (List.append_eq_nil_iff.mp (together.diagnostics.symm.trans quiet)).2
    have helpers : Helper.definitions last'.helpers = Helper.definitions last.helpers :=
      Helper.definitions_congr fun helper => (uses' helper).trans (uses helper).symm
    cases results with
    | some lines =>
      rw [code, code']
      unfold assemble
      rw [matched.imports, helpers]
      exact ((lines ⟨trivial, nothing⟩ 1).behind _).before _

end Commuting

/-- Two functions that call each other, in a branch of another function. -/
theorem functions_commute_nested :
    let load : String → Except Cause Module := fun path => .error (.variableNotDeclared path)
    let even := Stmt.mk 3 (.function "even" [⟨"n", .number⟩] .boolean
      [.mk 4 (.returns (some [.call "odd" [] [[.access "n" []]]]))])
    let odd := Stmt.mk 6 (.function "odd" [⟨"n", .number⟩] .boolean
      [.mk 7 (.returns (some [.call "even" [] [[.access "n" []]]]))])
    let around (block : List Stmt) := [Stmt.mk 1 (.function "main" [] .void
      [.mk 2 (.branch [.bool true] block .nothing)])]
    (BlockExchanged even odd true (around [even, odd]) (around [odd, even]) ∧
      (compile load false (around [even, odd])).diagnostics = [] ∧
      (compile load false (around [odd, even])).diagnostics = []) ∧
    TextExchanged even odd true (compile load false (around [even, odd])).code
      (compile load false (around [odd, even])).code := by
  intro load even odd around
  have exchanged : BlockExchanged even odd (false || false || true || false || false || false)
      (around [even, odd]) (around [odd, even]) :=
    .cons (.function (.cons
      (.branch (.cons (.plain rfl) .nil) (.exchange .nil) .nothing) .nil)) .nil
  have accepted : (compile load false (around [even, odd])).diagnostics = [] := by
    unfold around even odd load
    decide +kernel
  have accepted' : (compile load false (around [odd, even])).diagnostics = [] := by
    unfold around even odd load
    decide +kernel
  exact ⟨⟨exchanged, accepted, accepted'⟩,
    (functions_commute load false rfl rfl (by decide) exchanged).2.2 accepted accepted'⟩

/-- **The check of a program can tell the two orders apart.** A module leaves a comment open, and
the functions have strings in which comments end: in one order the rest of the program is complete,
in the other one it is not. -/
theorem check_tells_orders_apart :
    let load : String → Except Cause Module := fun path => .ok ⟨path, "m", "/*", none, [], []⟩
    let first := Stmt.mk 2 (.function "f" [] .void
      [.mk 3 (.declare "a" .string [.text "*/\x7d)();/*"] false)])
    let second := Stmt.mk 5 (.function "g" [] .void
      [.mk 6 (.declare "b" .string [.text "*/\x7b//"] false)])
    let script := [Stmt.mk 1 (.imports "m"), first, second]
    let script' := [Stmt.mk 1 (.imports "m"), second, first]
    first.kind.function? = some "f" ∧ second.kind.function? = some "g" ∧
    BlockExchanged first second true script script' ∧
    (compile load true script).diagnostics = [] ∧
    ¬(compile load true script).diagnostics.Perm (compile load true script').diagnostics := by
  intro load first second script script'
  -- The text is cut into its pieces first: the characters of a long text are slow to get at.
  have accepted : (compile load true script).diagnostics = [] := by
    have run : (generateLevel true script (.start load)).1 = some
        [.function false "f" [] [.declare false "a" (.text "*/\x7d)();/*")],
          .function false "g" [] [.declare false "b" (.text "*/\x7b//")]] := rfl
    rw [compile_checked_iff run rfl (show _ = [⟨"m", "m", "/*", none, [], []⟩] from rfl)
      (show _ = [] from rfl)]
    generalize same : (assemble _ _ _).toList = text
    unfold assemble at same
    simp only [Target.writeLines, Target.Stmt.write, Target.braced, String.toList_append] at same
    subst same
    decide +kernel
  have refused : (compile load true script').diagnostics ≠ [] := by
    have run : (generateLevel true script' (.start load)).1 = some
        [.function false "g" [] [.declare false "b" (.text "*/\x7b//")],
          .function false "f" [] [.declare false "a" (.text "*/\x7d)();/*")]] := rfl
    rw [ne_eq, compile_checked_iff run rfl (show _ = [⟨"m", "m", "/*", none, [], []⟩] from rfl)
      (show _ = [] from rfl)]
    generalize same : (assemble _ _ _).toList = text
    unfold assemble at same
    simp only [Target.writeLines, Target.Stmt.write, Target.braced, String.toList_append] at same
    subst same
    decide +kernel
  refine ⟨rfl, rfl, .cons (.imports "m") (.exchange .nil), accepted, fun same => refused ?_⟩
  rw [accepted] at same
  exact List.nil_perm.mp same

end TypedScript
