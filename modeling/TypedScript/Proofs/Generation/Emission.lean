/-
**Every statement is emitted.** Code that is generated without a diagnostic has, in every block, one
statement for each statement of the script that is no import, in the order of the script.

* `generateExpression_makes`, `generateKind_ends`, `generateStatements_makes`: what a step generates
  is made of its part of the script, or the step has reported something.
-/

import TypedScript.Compile
import TypedScript.Proofs.Generation.Parts

namespace TypedScript

variable {rest : List Step} {place : Context} {kind : Kind} {line : Nat}

/-! ### Expressions and statements -/

/-- The steps that `generateSteps` takes from an access. -/
abbrev walkedSteps (beforeLast : Bool) (taken : Nat) (steps : List Step) : List Step :=
  (if beforeLast then steps.dropLast else steps).drop taken

theorem walkedSteps_zero_cons (beforeLast : Bool) (step : Step)
    (last : (beforeLast && rest.isEmpty) = false) :
    walkedSteps beforeLast 0 (step :: rest) = step :: walkedSteps beforeLast 0 rest := by
  cases beforeLast with
  | false => rfl
  | true =>
    cases rest with
    | nil => contradiction
    | cons next rest => rfl

theorem walkedSteps_succ_cons (beforeLast : Bool) (taken : Nat) (step : Step)
    (last : (beforeLast && rest.isEmpty) = false) :
    walkedSteps beforeLast (taken + 1) (step :: rest) = walkedSteps beforeLast taken rest := by
  cases beforeLast with
  | false => rfl
  | true =>
    cases rest with
    | nil => contradiction
    | cons next rest => rfl

theorem ends_of_makes {assumed : Prop} {step : Gen Target.Stmt}
    (makes : Gen.Makes place assumed step fun stmt used =>
      stmt.declares? = none ∧ KindMade place kind stmt used) :
    Gen.Ends place assumed step fun stmt used after =>
      place.Gains after (Target.declaredVariables [stmt]) ∧ KindMade place kind stmt used := by
  refine Gen.Ends.weaken makes id fun stmt used after _ found => ?_
  obtain ⟨stays, declares, made⟩ := found
  rw [show Target.declaredVariables [stmt] = [] by simp [Target.declaredVariables, declares]]
  exact ⟨stays.gains, made⟩

theorem assignmentCode_declares? (integer : Option Ty) (op : Operator) (target value : Target.Expr) :
    (assignmentCode integer op target value).declares? = none := by
  unfold assignmentCode
  split <;> rfl

theorem generateImport_run (toplevel : Bool) (line : Nat) (path : String) (before : Context) :
    generateKind toplevel line (.imports path) before =
      (none, (generateImport path toplevel line before).2) := by
  rw [generateKind]
  show Gen.andThen _ _ before = _
  unfold Gen.andThen
  rcases generateImport path toplevel line before with ⟨_ | _, _⟩ <;> rfl

theorem generateImport_same (toplevel : Bool) (line : Nat) (path : String) (before : Context) :
    (generateImport path toplevel line before).2.scopes = before.scopes ∧
      (generateImport path toplevel line before).2.helpers = before.helpers := by
  rcases generateImport_cases path toplevel line before with
    ⟨_, -, -, -, -, -, added⟩ | ⟨_, reported, -⟩
  · rw [added]
    exact ⟨rfl, rfl⟩
  · rw [reported]
    exact ⟨rfl, rfl⟩

theorem BlockMakes.cons {toplevel : Bool} {rest : List Stmt}
    (one : ∀ place, Gen.Ends place (kind.isImport = false) (generateKind toplevel line kind)
      fun stmt used after =>
        place.Gains after (Target.declaredVariables [stmt]) ∧ KindMade place kind stmt used)
    (others : BlockMakes toplevel rest) : BlockMakes toplevel (.mk line kind :: rest) := by
  intro inside
  obtain ⟨grown, result⟩ := one inside inside
  rcases outcome : generateKind toplevel line kind inside with ⟨code?, middle⟩
  have statement : generateStatement toplevel (.mk line kind) inside = (code?, middle) := by
    rw [generateStatement, outcome]
  have run : generateStatements toplevel (.mk line kind :: rest) inside =
      ((generateStatements toplevel rest middle).1.map (code?.toList ++ ·),
        (generateStatements toplevel rest middle).2) := by
    rw [generateStatements]
    simp only [bind, Gen.andThen, Gen.attempt, statement]
    rcases generateStatements toplevel rest middle with ⟨_ | _, _⟩ <;> rfl
  obtain ⟨grown', result'⟩ := others middle
  rw [outcome] at grown result
  rw [run]
  refine ⟨grown.trans grown', fun quiet => ?_⟩
  have same := Context.quiet_between grown grown' quiet
  obtain ⟨codes, more, found', uses', made'⟩ := result' (quiet.trans same.symm)
  rw [found']
  cases isImport : kind.isImport with
  | false =>
    obtain ⟨code, used, rfl, uses, gains, made⟩ := result isImport (.refl inside) same
    exact ⟨code :: codes, more ++ used, rfl, uses.trans uses', .cons statement gains made made'⟩
  | true =>
    obtain ⟨path, rfl⟩ : ∃ path, kind = .imports path := by
      cases kind <;> first | exact ⟨_, rfl⟩ | contradiction
    rw [generateImport_run] at outcome
    obtain ⟨rfl, rfl⟩ := Prod.mk.inj outcome
    obtain ⟨scopes, helpers⟩ := generateImport_same toplevel line path inside
    refine ⟨codes, more, rfl, fun helper => helpers ▸ uses' helper, .imports statement ?_ rfl made'⟩
    exact ⟨by rw [scopes], fun name => by simp [scopes]⟩

theorem fromStart_makes {tokens : List Token}
    (makes : Gen.Makes place ((Operand.wanted none []).Reads place [] [])
      (generateExpression line (.wanted none []) tokens)
      fun value used => TokensMade place ([] ++ tokens) value.code (used ++ [])) :
    Gen.Makes place True (generateExpression line (.wanted none []) tokens)
      fun value => TokensMade place tokens value.code := by
  refine makes.weaken (fun _ => Operand.reads_start) fun value used _ made => ?_
  rwa [List.append_nil] at made

mutual

theorem generateValue_makes (place : Context) (line : Nat) : (token : Token) →
    Gen.Makes place True (generateValue line token) fun value => TokenMade place token value.code
  | .number _ | .text _ | .bool _ | .null | .object _ | .array _ => by
    rw [generateValue]
    exact .pure fun _ => by constructor
  | .operator op => by
    rw [generateValue]
    exact .fail
  | .group tokens => by
    rw [generateValue]
    exact .bind (fromStart_makes (generateExpression_makes place line _ _ _ tokens)) fun value _ =>
      .pure fun given => .group given.2
  | .access base steps => by
    rw [generateValue]
    exact (resolveWith_makes fun taken start =>
      generateSteps_makes place line false taken start steps).weaken id
        fun _ _ _ made => .access made.1 made.2
  | .call base steps arguments => by
    rw [generateValue]
    exact (generateCall_makes (generateArguments_makes place line arguments)
      fun beforeLast taken start => generateSteps_makes place line beforeLast taken start
        steps).weaken id fun _ _ _ called => .call called
  | .lambda params body => by
    rw [generateValue]
    refine .bind (functionBody_makes (generateStatements_makes false body)) fun code _ =>
      .pure fun given => ?_
    obtain ⟨_, inside, opens, block⟩ := given
    exact .lambda opens block
  | .await operand => by
    have value := generateValue_makes place line operand
    cases operand with
    | call base steps arguments =>
      rw [generateValue]
      exact .bind (generateCall_makes (generateArguments_makes place line arguments)
        fun beforeLast taken start => generateSteps_makes place line beforeLast taken start steps)
        fun value _ => .pure fun given => .await (.call given.2)
    | _ =>
      rw [generateValue_await line (by simp)]
      exact .bind value fun value _ => .pure fun given => .await given.2

theorem generateExpression_makes (place : Context) (line : Nat) (before : Operand)
    (taken : List Token) (used : List Helper) : (tokens : List Token) →
    Gen.Makes place (before.Reads place taken used) (generateExpression line before tokens)
      fun value more => TokensMade place (taken ++ tokens) value.code (more ++ used)
  | [] => by
    rw [generateExpression, List.append_nil]
    exact (Gen.Finds.of_keeps (atEnd_keeps False.elim) atEnd_code).weaken id fun value _ _ made => by
      rw [made.1]
      exact made.2
  | token :: rest => by
    have operand := generateValue_makes place line token
    have others next more := generateExpression_makes place line next (taken ++ [token]) more rest
    rw [List.append_cons]
    cases isValue : token.isValue with
    | false =>
      obtain ⟨op, rfl⟩ := Token.exists_operator isValue
      rw [generateExpression]
      exact .behind (.of_keeps (afterOperator_keeps False.elim) afterOperator_reads) fun next =>
        (others next used).weaken And.right fun _ _ _ made => made
    | true =>
      rw [generateExpression_value line before isValue]
      refine .bind (afterValue_reads operand) fun next more =>
        (others next _).weaken And.right fun _ _ _ made => ?_
      rwa [← List.append_assoc] at made

theorem generateStep_makes (place : Context) (line : Nat) (receiver : Value) : (step : Step) →
    Gen.Makes place True (generateStep line receiver step) fun value =>
      StepsMade place receiver.code [step] value.code
  | .property name => by
    rw [generateStep]
    refine (Gen.Finds.of_keeps accessMember_keeps accessMember_code).weaken id
      fun value _ _ same => ?_
    rw [same.1, same.2]
    exact .property .nil
  | .index tokens => by
    rw [generateStep]
    refine (accessIndex_makes (fromStart_makes
      (generateExpression_makes place line _ _ _ tokens))).weaken id fun value _ _ found => ?_
    obtain ⟨index, made, same⟩ := found
    rw [same]
    exact .index made .nil

theorem generateSteps_makes (place : Context) (line : Nat) (beforeLast : Bool) (taken : Nat)
    (receiver : Value) : (steps : List Step) →
    Gen.Makes place True (generateSteps line beforeLast taken receiver steps) fun value =>
      StepsMade place receiver.code (walkedSteps beforeLast taken steps) value.code
  | [] => by
    rw [generateSteps, show walkedSteps beforeLast taken [] = [] by cases beforeLast <;> simp]
    exact .pure fun _ => .nil
  | step :: rest => by
    have one := generateStep_makes place line receiver step
    have others taken receiver := generateSteps_makes place line beforeLast taken receiver rest
    rw [generateSteps.eq_def]
    refine .ite (fun last => .pure fun _ => ?_) fun more => ?_
    · obtain ⟨rfl, empty⟩ := Bool.and_eq_true_iff.mp last
      rw [List.isEmpty_iff.mp empty, show walkedSteps true taken [step] = [] by simp]
      exact .nil
    · have more := eq_false_of_ne_true more
      cases taken with
      | succ taken =>
        rw [walkedSteps_succ_cons _ _ _ more]
        exact others taken receiver
      | zero =>
        rw [walkedSteps_zero_cons _ _ more]
        exact .bind one fun next _ => (others 0 next).weaken (fun _ => trivial)
          fun value _ given made => given.2.append made

theorem generateArguments_makes (place : Context) (line : Nat) : (arguments : List (List Token)) →
    Gen.Makes place True (generateArguments line arguments) fun values? used =>
      ∃ values, values? = some values ∧
        ArgumentsMade place arguments (values.map Value.code) used
  | [] => by
    rw [generateArguments]
    exact .pure fun _ => ⟨[], rfl, .nil⟩
  | tokens :: rest => by
    rw [generateArguments]
    refine .bind (fromStart_makes (generateExpression_makes place line _ _ _ tokens)).attempt
      fun value? _ => .bind (generateArguments_makes place line rest).given fun others? _ => ?_
    split
    · refine .pure fun given => ?_
      obtain ⟨⟨_, value, same, code⟩, others, same', codes⟩ := given
      obtain rfl := Option.some.inj same
      obtain rfl := Option.some.inj same'
      exact ⟨_, rfl, .cons code codes⟩
    · rename_i failed
      refine .pure fun given => ?_
      obtain ⟨⟨_, value, same, _⟩, others, same', _⟩ := given
      exact absurd same' (failed value others same)

/-- A statement that is no import is made where its own variable is not declared yet, or reports
something. An import only reports. -/
theorem generateKind_ends (place : Context) (toplevel : Bool) (line : Nat) : (kind : Kind) →
    Gen.Ends place (kind.isImport = false) (generateKind toplevel line kind)
      fun stmt used after => place.Gains after (Target.declaredVariables [stmt]) ∧
        KindMade place kind stmt used
  | .declare name type value constant => by
    rw [generateKind]
    refine (generateDeclaration_ends (fromStart_makes
      (generateExpression_makes place line _ _ _ value))).weaken id fun stmt _ _ _ found => ?_
    obtain ⟨gains, value, made, rfl⟩ := found
    exact ⟨gains, .declare made⟩
  | .modify base steps op value => by
    rw [generateKind]
    refine ends_of_makes ((generateModification_makes
      (resolveWith_makes fun taken start => generateSteps_makes place line false taken start steps)
      (fromStart_makes (generateExpression_makes place line _ _ _ value))).weaken id
        fun stmt _ _ found => ?_)
    obtain ⟨integer, target, value, _, _, made, made', rfl, rfl⟩ := found
    exact ⟨assignmentCode_declares? _ _ _ _, .modify made.1 made.2 made'⟩
  | .expression tokens => by
    rw [generateKind]
    exact ends_of_makes (.bind
      (fromStart_makes (generateExpression_makes place line _ _ _ tokens)).given
      fun value _ => .pure fun given => ⟨rfl, .expression given.2⟩)
  | .call base steps arguments => by
    rw [generateKind]
    exact ends_of_makes (.bind (generateCall_makes (generateArguments_makes place line arguments)
      fun beforeLast taken start => generateSteps_makes place line beforeLast taken start steps)
      fun value _ => .pure fun given => ⟨rfl, .call given.2⟩)
  | .function name params returns body => by
    rw [generateKind]
    refine ends_of_makes (.behind (.of_keeps checkReturnType_keeps checkReturnType_delivers)
      fun _ => .behind reachFunction_makes fun _ =>
        .bind (functionBody_makes (generateStatements_makes false body)) fun code _ =>
          .pure fun given => ⟨rfl, ?_⟩)
    obtain ⟨_, inside, opens, block⟩ := given
    exact .function opens block
  | .branch condition body otherwise => by
    rw [generateKind]
    refine ends_of_makes (.bind (generateCondition_makes
      (fromStart_makes (generateExpression_makes place line _ _ _ condition)))
      fun test _ => .bind (inBlock_makes (generateStatements_makes false body) fun _ => rfl)
        fun code _ => .bind (generateOtherwise_makes place line otherwise).given
          fun alternative _ => .pure fun given => ⟨rfl, ?_⟩)
    obtain ⟨⟨⟨_, value, made, rfl⟩, inside, opens, block⟩, rest⟩ := given
    exact .branch made opens block rest
  | .loop condition body => by
    rw [generateKind]
    refine ends_of_makes (.bind (generateCondition_makes
      (fromStart_makes (generateExpression_makes place line _ _ _ condition)))
      fun test _ => .bind (inBlock_makes (generateStatements_makes false body) fun _ => rfl)
        fun code _ => .pure fun given => ⟨rfl, ?_⟩)
    obtain ⟨⟨_, value, made, rfl⟩, inside, opens, block⟩ := given
    exact .loop made opens block
  | .imports path => by
    rw [generateKind]
    exact .unreachable (.bind generateImport_delivers fun _ => .stop And.left) nofun
  | .returns none => by
    rw [generateKind]
    refine ends_of_makes ((Gen.Finds.of_keeps generateReturn_keeps generateReturn_delivers).weaken
      id fun stmt _ _ same => ?_)
    rw [same.1, same.2]
    exact ⟨rfl, .returnsNothing⟩
  | .returns (some tokens) => by
    rw [generateKind]
    refine ends_of_makes ((generateReturnOf_makes (fromStart_makes
      (generateExpression_makes place line _ _ _ tokens))).weaken id
      fun stmt _ _ found => ?_)
    obtain ⟨type, value, made, rfl⟩ := found
    exact ⟨rfl, .returnsValue made⟩

theorem generateOtherwise_makes (place : Context) (line : Nat) : (otherwise : Otherwise) →
    Gen.Makes place True (generateOtherwise line otherwise) (OtherwiseMade place otherwise)
  | .nothing => by
    rw [generateOtherwise]
    exact .pure fun _ => .nothing
  | .block body => by
    rw [generateOtherwise]
    refine .bind (inBlock_makes (generateStatements_makes false body) fun _ => rfl) fun code _ =>
      .pure fun given => ?_
    obtain ⟨_, inside, opens, block⟩ := given
    exact .block opens block
  | .elseIf line condition body otherwise => by
    rw [generateOtherwise]
    refine .bind (generateCondition_makes (fromStart_makes
      (generateExpression_makes place line _ _ _ condition))) fun test _ =>
      .bind (inBlock_makes (generateStatements_makes false body) fun _ => rfl) fun code _ =>
        .bind (generateOtherwise_makes place line otherwise).given fun alternative _ =>
          .pure fun given => ?_
    obtain ⟨⟨⟨_, value, made, rfl⟩, inside, opens, block⟩, rest⟩ := given
    exact .elseIf made opens block rest

theorem generateStatements_makes (toplevel : Bool) : (body : List Stmt) → BlockMakes toplevel body
  | [] => by
    intro inside
    rw [generateStatements]
    exact ⟨List.prefix_rfl, fun _ => ⟨[], [], rfl, .nothing rfl, .nil⟩⟩
  | .mk line kind :: rest => by
    have one place := generateKind_ends place toplevel line kind
    exact .cons one (generateStatements_makes toplevel rest)

end

/-! ### The code of a step -/

theorem generateTokens_code (line : Nat) (tokens : List Token) :
    Gen.Delivers True (generateExpression line (.wanted none []) tokens)
      fun value => TokensCode tokens value.code :=
  .of_ends (fun place => fromStart_makes (generateExpression_makes place line _ _ _ tokens))
    fun _ _ _ _ made => made.2.code

theorem generateAccess_code (line : Nat) (base : String) (steps : List Step) :
    Gen.Delivers True
      (resolveWith base steps line fun taken start => generateSteps line false taken start steps)
      fun value => StepsCode (.name base) steps value.code :=
  .of_ends (fun place => resolveWith_makes fun taken start =>
    generateSteps_makes place line false taken start steps) fun _ _ _ _ made => made.2.2.code

theorem generateKind_code (toplevel : Bool) (line : Nat) (kind : Kind) :
    Gen.Delivers (kind.isImport = false) (generateKind toplevel line kind) (KindCode kind) :=
  .of_ends (fun place => generateKind_ends place toplevel line kind)
    fun _ _ _ _ made => made.2.code

/-! ### Nothing is left out in silence -/

/-- A step without a result reports something. -/
def Gen.Reports {α : Type} (step : Gen α) : Prop :=
  ∀ before : Context, (step before).1 = none →
    ∃ first rest, (step before).2.diagnostics = before.diagnostics ++ first :: rest

/-- **The statements of a script that is accepted** were made without a diagnostic. -/
theorem compile_made {load : String → Except Cause Module} {check : Bool} {script : List Stmt}
    (accepted : (compile load check script).diagnostics = []) :
    ∃ inside body last used, hoist script (.start load) = (some (), inside) ∧
      generateLevel true script (.start load) = (some body, last) ∧
      inside.diagnostics = [] ∧ last.diagnostics = [] ∧
      inside.Uses used last ∧ BlockMade true inside script body used ∧
      (compile load check script).code = assemble last.imports last.helpers body := by
  rcases outcome : generateLevel true script (.start load) with ⟨body?, last⟩
  have quiet : last.diagnostics = [] := by
    by_contra reported
    have refused : (compile load check script).diagnostics = last.diagnostics := by
      simp [compile, outcome, reported]
    exact reported (refused.symm.trans accepted)
  obtain ⟨inside, hoists, -⟩ := hoist_run script (.start load)
  have run : generateStatements true script inside = (body?, last) := by
    rw [← outcome, generateLevel]
    simp only [bind, Gen.andThen, hoists]
  obtain ⟨grown, result⟩ := generateStatements_makes true script inside
  rw [run] at grown result
  have opened : inside.diagnostics = [] := List.prefix_nil.mp (quiet ▸ grown)
  obtain ⟨body, used, rfl, uses, made⟩ := result (quiet.trans opened.symm)
  refine ⟨inside, body, last, used, hoists, rfl, opened, quiet, uses, made, ?_⟩
  simp only [compile, outcome, quiet, indent_of_run outcome] at accepted ⊢
  rw [if_neg (by decide)] at accepted ⊢
  rcases checked : (if check then checkProgram (assemble last.imports last.helpers body) else .ok ())
    with diagnostic | _
  · rw [Option.getD_some, checked] at accepted
    contradiction
  · rw [Option.getD_some, checked]

theorem compile_code (load : String → Except Cause Module) (check : Bool)
    (statements : List Stmt) (accepted : (compile load check statements).diagnostics = []) :
    ∃ imports helpers body, (compile load check statements).code = assemble imports helpers body ∧
      BlockCode statements body := by
  obtain ⟨_, body, last, _, -, -, -, -, -, made, code⟩ := compile_made accepted
  exact ⟨last.imports, last.helpers, body, code, made.code⟩

theorem writeLines_eq_join (indent : Nat) (block : List Target.Stmt) :
    Target.writeLines indent block =
      String.join (block.map fun stmt => Target.padding indent ++ stmt.write indent ++ "\n") := by
  induction block with
  | nil => rfl
  | cons stmt rest ih =>
    rw [Target.writeLines, ih]
    simp

/-- **Nothing is left out in silence.** An expression, an access, a call or a statement other than
an import that has no code has reported something. So the program of a script that is accepted has,
in every block, exactly one statement for each statement of the script but its imports, in the same
order. -/
theorem nothing_dropped (line : Nat) :
    (∀ tokens, (generateTokens tokens line).Reports) ∧
    (∀ token, (generateValue line token).Reports) ∧
    (∀ base steps, (resolveWith base steps line fun taken start =>
      generateSteps line false taken start steps).Reports) ∧
    (∀ awaited base steps arguments, (generateCall awaited line (generateArguments line arguments)
      (callTarget base steps line fun beforeLast taken start =>
        generateSteps line beforeLast taken start steps)).Reports) ∧
    (∀ toplevel kind, kind.isImport = false →
      (generateStatement toplevel (.mk line kind)).Reports) ∧
    (∀ load check statements, (compile load check statements).diagnostics = [] →
      ∃ imports helpers body,
        (compile load check statements).code = assemble imports helpers body ∧
          BlockCode statements body) ∧
    (∀ indent body, Target.writeLines indent body =
      String.join (body.map fun stmt => Target.padding indent ++ stmt.write indent ++ "\n")) := by
  refine ⟨fun tokens => ?_, fun token => ?_, fun base steps => ?_,
    fun awaited base steps arguments => ?_, fun toplevel kind coded => ?_, compile_code,
    writeLines_eq_join⟩
  · exact (generateTokens_code line tokens).reported
  · exact (Gen.Delivers.of_ends (fun place => generateValue_makes place line token)
      fun _ _ _ _ _ => trivial).reported
  · exact (generateAccess_code line base steps).reported
  · exact (Gen.Delivers.of_ends (fun place => generateCall_makes
      (generateArguments_makes place line arguments) fun beforeLast taken start =>
        generateSteps_makes place line beforeLast taken start steps)
      fun _ _ _ _ _ => trivial).reported
  · rw [generateStatement]
    exact ((generateKind_code toplevel line kind).weaken (fun _ => coded)
      fun _ _ emitted => emitted).reported

/-- A function whose branch declares a lambda, and its call; and a statement that is refused. -/
theorem nothing_dropped_nested :
    let load : String → Except Cause Module := fun path => .error (.variableNotDeclared path)
    let body := [Stmt.mk 2 (.branch [.bool true]
      [.mk 3 (.declare "g" .func [.lambda [] [.mk 4 (.returns (some [.text "x"]))]] true)]
      .nothing)]
    let script := [Stmt.mk 1 (.function "f" [] .void body), .mk 7 (.call "f" [] [])]
    let refused := generateStatement true (.mk 8 (.expression [.access "h" []]))
    ((compile load false script).diagnostics = [] ∧
      ∃ imports helpers code,
        (compile load false script).code = assemble imports helpers code ∧
          BlockCode script code) ∧
    (refused (.start load)).1 = none ∧
      ∃ first rest, (refused (.start load)).2.diagnostics = [] ++ first :: rest := by
  intro load body script refused
  have accepted : (compile load false script).diagnostics = [] := rfl
  have failed : (refused (.start load)).1 = none := rfl
  obtain ⟨-, -, -, -, reports, emits, -⟩ := nothing_dropped 8
  exact ⟨⟨accepted, emits load false script accepted⟩, failed,
    reports true (.expression [.access "h" []]) rfl (.start load) failed⟩

end TypedScript
