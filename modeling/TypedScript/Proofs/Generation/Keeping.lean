/-
**What generation does to a context.** Generation reports diagnostics, takes helpers into use,
declares names, and enters and leaves blocks and functions. A relation of contexts that respects all
of this relates the context behind a step to the one in front of it, whatever the step is for.

Some causes are reported of ill-formed expressions only. A relation may be strict about these; then
the expressions have to be known to be well-formed.
-/

import Mathlib.Order.Defs.Unbundled
import TypedScript.Proofs.Generation.Causes
import TypedScript.Proofs.Generation.Translation
import TypedScript.Proofs.Parsing.Parts
import TypedScript.Proofs.Parsing.Spots

set_option linter.unusedSectionVars false

namespace TypedScript

variable {condition : Prop} {bindings : List Binding} {returns type : Ty} {operand receiver : Value}
  {base name : String} {awaited : Bool} {params : List Param} {body : List Stmt}

/-! ### Relations of contexts -/

/-- A relation that respects reports on a line, if their cause is regular or the relation is not
strict. -/
class Tolerates (related : Context → Context → Prop) (strict : outParam Prop) (line : Nat) :
    Prop where
  report (context : Context) {cause : Cause} (admitted : strict → cause.IsRegular) :
    related context (context.report cause line)

/-- A relation that respects declarations. -/
class Declares (related : Context → Context → Prop) : Prop where
  declare (context : Context) (binding : Binding) : related context (context.declare binding)

/-- A relation for expressions and one for the statements of a block, which may do more. -/
class Frames (place : Context → Context → Prop) (block : outParam (Context → Context → Prop)) :
    Prop where
  widen {before after : Context} : place before after → block before after
  use (context : Context) (helper : Helper) : place context (context.use helper)
  leaveBlock {before after : Context} :
    block before.enterBlock after → place before after.leaveBlock
  leaveFunction {before after : Context} {returns : Ty} :
    place (before.enterFunction returns) after → place before after.leaveFunction

/-! ### Steps -/

namespace Gen

variable {α β : Type}

/-- Every run of a step relates the context behind it to the one in front of it. -/
def Keeps (related : Context → Context → Prop) (step : Gen α) : Prop :=
  ∀ before : Context, related before (step before).2

def Yields (step : Gen α) (kind : α → Prop) : Prop :=
  ∀ before value, (step before).1 = some value → kind value

namespace Yields

variable {kind : α → Prop} {line : Nat}

theorem pure {value : α} (holds : kind value) : Yields (Pure.pure value : Gen α) kind := by
  rintro before _ ⟨⟩
  exact holds

theorem fail {cause : Cause} : Yields (Gen.fail cause line : Gen α) kind :=
  nofun

theorem bind {step : Gen β} {next : β → Gen α} (last : ∀ value, Yields (next value) kind) :
    Yields (step >>= next) kind := by
  intro before value found
  change (step.andThen next before).1 = some value at found
  unfold andThen at found
  rcases outcome : step before with ⟨_ | middle, after⟩
  · rw [outcome] at found
    contradiction
  · rw [outcome] at found
    exact last middle after value found

theorem ite [Decidable condition] {step other : Gen α} (yes : Yields step kind)
    (no : Yields other kind) : Yields (if condition then step else other) kind := by
  split
  · exact yes
  · exact no

end Yields

namespace Keeps

variable {related place block : Context → Context → Prop} {step : Gen α}

theorem of_run (keeps : Keeps related step) {before after : Context} {value? : Option α}
    (run : step before = (value?, after)) : related before after := by
  have kept := keeps before
  rwa [run] at kept

theorem widen (place : Context → Context → Prop) [Frames place block] (keeps : Keeps place step) :
    Keeps block step :=
  fun before => Frames.widen (keeps before)

theorem ite [Decidable condition] {other : Gen α} (yes : Keeps related step)
    (no : Keeps related other) :
    Keeps related (if condition then step else other) := by
  split
  · exact yes
  · exact no

theorem attempt (keeps : Keeps related step) : Keeps related step.attempt :=
  fun before => keeps before

theorem change {step : Context → Context} (kept : ∀ context, related context (step context)) :
    Keeps related (Gen.change step) :=
  kept

section Preorder

variable [IsPreorder Context related] {next : α → Gen β}

theorem pure {value : α} : Keeps related (Pure.pure value : Gen α) :=
  fun before => refl before

theorem stop : Keeps related (Gen.stop : Gen α) :=
  fun before => refl before

theorem context : Keeps related Gen.context :=
  fun before => refl before

theorem bindYields {kind : α → Prop} (first : Keeps related step) (yields : Yields step kind)
    (second : ∀ value, kind value → Keeps related (next value)) :
    Keeps related (step >>= next) := by
  intro before
  have kept := first before
  have yielded := yields before
  show related before (step.andThen next before).2
  unfold andThen
  rcases outcome : step before with ⟨_ | value, after⟩
  · rw [outcome] at kept
    exact kept
  · rw [outcome] at kept yielded
    exact IsTrans.trans _ _ _ kept (second value (yielded value rfl) after)

theorem bind (first : Keeps related step) (second : ∀ value, Keeps related (next value)) :
    Keeps related (step >>= next) :=
  bindYields first (fun _ _ _ => trivial) fun value _ => second value

theorem guarded [Decidable condition] {note : Gen Unit} {next : Unit → Gen α}
    (noted : Keeps related note) (rest : Keeps related (next ())) :
    Keeps related (if condition then note >>= next else next ()) :=
  ite (bind noted fun _ => rest) rest

end Preorder

section Reports

variable {strict : Prop} {line : Nat} {cause : Cause} [here : Tolerates related strict line]

include here

theorem report (admitted : strict → cause.IsRegular) : Keeps related (Gen.report cause line) :=
  fun before => Tolerates.report before admitted

theorem fail (admitted : strict → cause.IsRegular) : Keeps related (Gen.fail cause line : Gen α) :=
  fun before => Tolerates.report before admitted

variable [IsPreorder Context related]

theorem ofExcept {outcome : Except Cause α} (fails : FailsRegularly outcome) :
    Keeps related (Gen.ofExcept outcome line) := by
  cases outcome with
  | ok value => exact pure
  | error cause => exact fail fun _ => fails cause rfl

theorem expect {check : Except Cause Unit} (fails : FailsRegularly check) :
    Keeps related (Gen.expect check line) := by
  cases check with
  | ok => exact pure
  | error cause => exact report fun _ => fails cause rfl

theorem reportAll {causes : List Cause} (regular : ∀ cause ∈ causes, cause.IsRegular) :
    Keeps related (Gen.reportAll line causes) := by
  induction causes with
  | nil => exact pure
  | cons cause rest ih =>
    obtain ⟨first, others⟩ := List.forall_mem_cons.mp regular
    rw [Gen.reportAll]
    exact bind (report fun _ => first) fun _ => ih others

theorem declareAll [Declares related] : Keeps related (Gen.declareAll line bindings) := by
  induction bindings with
  | nil => exact pure
  | cons binding rest ih =>
    rw [Gen.declareAll]
    exact bind context fun _ => guarded (report fun _ => trivial)
      (bind (change fun before => Declares.declare before binding) fun _ => ih)

end Reports

/-- **A step inside a new block** comes back to the same place, if it stays in its block. -/
theorem inBlock {strict : Prop} {line : Nat} [Frames place block] [IsPreorder Context block]
    [Declares block] [Tolerates block strict line] (keeps : Keeps block step) :
    Keeps place (Gen.inBlock bindings line step) := by
  intro before
  have inside : Keeps block (Gen.declareAll line bindings >>= fun _ => step) :=
    bind declareAll fun _ => keeps
  exact Frames.leaveBlock (inside before.enterBlock)

theorem inFunction [Frames place block] (keeps : Keeps place step) :
    Keeps place (Gen.inFunction returns step) :=
  fun before => Frames.leaveFunction (keeps (before.enterFunction returns))

end Keeps

end Gen

/-! ### Tokens in their places -/

section Tokens

variable {before : Operand} {op : Operator} {token : Token} {rest : List Token} {line : Nat}

/-- Tokens that may follow what was taken of an expression. -/
def Operand.Continues (tokens : List Token) : Operand → Prop
  | .wanted .. => WellFormed tokens
  | .complete _ => tokens = [] ∨ tokens.head?.any Token.isValue = false ∧ WellFormed tokens

theorem WellFormed.tail (formed : WellFormed (token :: rest)) (more : rest ≠ []) :
    WellFormed rest where
  nonempty := more
  ends := by
    obtain ⟨next, others, rfl⟩ := List.exists_cons_of_ne_nil more
    simpa only [List.getLast?_cons_cons] using formed.ends
  apart := formed.apart.tail
  allowed := (List.forall_mem_cons.mp formed.allowed).2

theorem WellFormed.behind_operator (formed : WellFormed (.operator op :: rest)) :
    WellFormed rest := by
  refine formed.tail ?_
  rintro rfl
  exact nomatch formed.ends

theorem WellFormed.behind_value (formed : WellFormed (token :: rest))
    (isValue : token.isValue = true) :
    rest = [] ∨ rest.head?.any Token.isValue = false ∧ WellFormed rest := by
  cases rest with
  | nil => exact .inl rfl
  | cons next others =>
    obtain ⟨apart, -⟩ := List.isChain_cons_cons.mp formed.apart
    exact .inr ⟨apart isValue, formed.tail (List.cons_ne_nil _ _)⟩

theorem WellFormed.operator_plain (formed : WellFormed (.operator op :: rest)) :
    op.isAssignment = false := by
  have allowed := formed.allowed _ List.mem_cons_self
  rwa [Token.isAllowed, Bool.not_eq_true'] at allowed

theorem Operand.Continues.wellFormed (continues : before.Continues (token :: rest)) :
    WellFormed (token :: rest) := by
  cases before with
  | wanted left prefixes => exact continues
  | complete value =>
    rcases continues with none | ⟨-, formed⟩
    · contradiction
    · exact formed

theorem Operand.Continues.wanted (continues : before.Continues (token :: rest))
    (isValue : token.isValue = true) (first : Value) : before ≠ .complete first := by
  rintro rfl
  rcases continues with none | ⟨apart, -⟩
  · contradiction
  · rw [List.head?_cons, Option.any_some, isValue] at apart
    contradiction

theorem afterOperator_yields (formed : WellFormed rest) :
    Gen.Yields (before.afterOperator line op) (Operand.Continues rest) := by
  cases before with
  | wanted | complete => exact .ite (.pure formed) .fail

theorem afterValue_yields {value : Gen Value}
    (behind : rest = [] ∨ rest.head?.any Token.isValue = false ∧ WellFormed rest) :
    Gen.Yields (before.afterValue line value) (Operand.Continues rest) := by
  cases before with
  | wanted left prefixes =>
    exact .bind fun _ => .bind fun _ => .bind fun _ => .pure behind
  | complete _ => exact .fail

end Tokens

/-! ### Expressions -/

section Parts

variable {related place block : Context → Context → Prop} {strict : Prop} {line : Nat}

section Expressions

variable [IsPreorder Context related] [here : Tolerates related strict line] {before : Operand}
  {op : Operator} {value : Gen Value} {steps : List Step}

include here

theorem applyPrefixes_keeps {prefixes : List Operator} :
    Gen.Keeps related (applyPrefixes line prefixes operand) := by
  induction prefixes generalizing operand with
  | nil => exact .pure
  | cons op rest ih => exact .bind (.ofExcept (Ty.applyUnary_regular _ _)) fun _ => ih

theorem applyLeft_keeps {left : Option (Value × Operator)} :
    Gen.Keeps related (applyLeft line left operand) := by
  cases left with
  | none => exact .pure
  | some pair => exact .bind (.ofExcept (Ty.applyBinary_regular _ _ _)) fun _ => .pure

theorem afterOperator_keeps (plain : strict → op.isAssignment = false) :
    Gen.Keeps related (before.afterOperator line op) := by
  cases before with
  | wanted | complete => exact .ite .pure (.fail fun formed => ⟨op, plain formed, rfl⟩)

theorem afterValue_keeps (wanted : strict → ∀ first, before ≠ .complete first)
    (keeps : Gen.Keeps related value) : Gen.Keeps related (before.afterValue line value) := by
  cases before with
  | wanted left prefixes =>
    exact .bind keeps fun _ => .bind applyPrefixes_keeps fun _ => .bind applyLeft_keeps fun _ =>
      .pure
  | complete first => exact .fail fun formed => absurd rfl (wanted formed first)

theorem atEnd_keeps (continues : strict → before.Continues []) :
    Gen.Keeps related (before.atEnd line) := by
  cases before with
  | wanted left prefixes => exact .fail fun formed => absurd rfl (continues formed).nonempty
  | complete value => exact .pure

theorem resolveBase_keeps : Gen.Keeps related (resolveBase base steps line) := by
  refine .bind .context fun context => ?_
  split
  · exact .pure
  · split
    · exact .fail fun _ => trivial
    · split
      · split
        · exact .pure
        · exact .fail fun _ => trivial
      · exact .pure

theorem resolveWith_keeps {walk : Nat → Value → Gen Value}
    (walks : ∀ taken start, Gen.Keeps related (walk taken start)) :
    Gen.Keeps related (resolveWith base steps line walk) :=
  .bind resolveBase_keeps fun start => walks start.2 start.1

theorem accessMember_keeps : Gen.Keeps related (accessMember receiver name line) :=
  .bind (.ofExcept (Ty.member_regular _ _ _)) fun _ => .pure

theorem accessIndex_keeps {index : Gen Value} (keeps : Gen.Keeps related index) :
    Gen.Keeps related (accessIndex receiver index line) :=
  .bind (.ofExcept (Ty.indexed_regular _)) fun _ => .bind keeps fun _ =>
    .bind (.expect (Ty.checkAssignment_regular _ _)) fun _ => .pure

theorem callValue_keeps {value : Value} : Gen.Keeps related (callValue value name line) :=
  .ite .pure (.fail fun _ => trivial)

theorem callName_keeps : Gen.Keeps related (callName name line) := by
  refine .bind .context fun context => ?_
  split
  · exact .ite (.fail fun _ => trivial) (.fail fun _ => trivial)
  · split
    · exact .pure
    · exact callValue_keeps

theorem callModule_keeps {module : Module} {member : String} :
    Gen.Keeps related (callModule module base member line) := by
  unfold callModule
  split
  · exact .pure
  · split
    · exact callValue_keeps
    · exact .fail fun _ => trivial

theorem callMember_keeps [Frames related block] :
    Gen.Keeps related (callMember receiver name line) := by
  refine .bind (.ofExcept (Ty.member_regular _ _ _)) fun member => .ite callValue_keeps ?_
  split
  · exact .pure
  · exact .bind (.change fun before => Frames.use before _) fun _ => .pure

theorem callTarget_keeps [Frames related block] {walk : Bool → Nat → Value → Gen Value}
    (walks : ∀ beforeLast taken start, Gen.Keeps related (walk beforeLast taken start)) :
    Gen.Keeps related (callTarget base steps line walk) := by
  refine .bind .context fun context => ?_
  split
  · exact callModule_keeps
  · unfold callSteps
    split
    · exact callName_keeps
    · exact .bind (resolveWith_keeps (walks false)) fun _ => callValue_keeps
    · exact .bind (resolveWith_keeps (walks true)) fun _ => callMember_keeps

theorem call_keeps {target : CallTarget} {arguments : List Value} :
    Gen.Keeps related (target.call arguments awaited line) := by
  cases target with
  | unchecked code => exact .pure
  | checked code receiver params variadic returns async =>
    exact .bind (.reportAll (Ty.checkArguments_regular _ _ _)) fun _ => .pure

theorem generateCall_keeps {values : Gen (Option (List Value))} {target : Gen CallTarget}
    (arguments : Gen.Keeps related values) (called : Gen.Keeps related target) :
    Gen.Keeps related (generateCall awaited line values target) := by
  refine .bind arguments fun values? => .bind called fun _ => ?_
  cases values? with
  | none => exact .stop
  | some values => exact call_keeps

/-! ### Statements -/

theorem parameterBindings_keeps : Gen.Keeps related (parameterBindings line params) := by
  induction params with
  | nil => exact .pure
  | cons param rest ih =>
    exact .bind (.expect (Ty.checkNames_regular _)) fun _ => .bind ih fun _ => .pure

theorem checkVariableType_keeps : Gen.Keeps related (checkVariableType type line) :=
  .ite (.fail fun _ => trivial) (.ofExcept (Ty.checkNames_regular _))

theorem checkReturnType_keeps : Gen.Keeps related (checkReturnType returns line) :=
  .ite (.report fun _ => trivial) (.expect (Ty.checkNames_regular _))

theorem integerTarget_keeps : Gen.Keeps related (integerTarget base steps line) := by
  refine .bind .context fun context => ?_
  split
  · split
    · exact .fail fun _ => trivial
    · exact .ite (.ite (.fail fun _ => trivial) .pure) .pure
  · exact .ite (.fail fun _ => trivial) .pure

omit here in
theorem assignedType_regular (op : Operator) (target value : Ty) :
    FailsRegularly (assignedType op target value) := by
  unfold assignedType
  split
  · exact Ty.applyBinary_regular _ _ _
  · exact .ok

theorem generateModification_keeps {target : Gen Value} (targets : Gen.Keeps related target)
    (values : Gen.Keeps related value) :
    Gen.Keeps related (generateModification base steps op target value line) := by
  refine .bind integerTarget_keeps fun _ => .bind targets.attempt fun target? =>
    .bind values.attempt fun value? => ?_
  split
  · exact .bind (.ofExcept (assignedType_regular _ _ _)) fun _ =>
      .bind (.expect (Ty.checkAssignment_regular _ _)) fun _ => .pure
  · exact .stop

theorem generateCondition_keeps {statement : String} {condition : Gen Value}
    (keeps : Gen.Keeps related condition) :
    Gen.Keeps related (generateCondition statement condition line) := by
  refine .bind keeps.attempt fun value? => ?_
  cases value? with
  | none => exact .pure
  | some value => exact .guarded (.report fun _ => trivial) .pure

theorem returnType_keeps : Gen.Keeps related (returnType line) := by
  refine .bind .context fun context => ?_
  split
  · exact .fail fun _ => trivial
  · exact .pure

theorem generateReturn_keeps : Gen.Keeps related (generateReturn line) :=
  .bind returnType_keeps fun _ => .guarded (.report fun _ => trivial) .pure

theorem generateReturnOf_keeps (keeps : Gen.Keeps related value) :
    Gen.Keeps related (generateReturnOf value line) :=
  .bind returnType_keeps fun _ => .bind keeps fun _ =>
    .ite (.bind (.report fun _ => trivial) fun _ => .pure)
      (.bind (.expect (Ty.checkAssignment_regular _ _)) fun _ => .pure)

/-- An import inside a block is reported and nothing else. -/
theorem generateImport_nested_keeps {path : String} :
    Gen.Keeps related (generateImport path false line) :=
  .bind .context fun _ => .report fun _ => trivial

end Expressions

section Blocks

variable [IsPreorder Context block] [Declares block]

theorem reachFunction_keeps : Gen.Keeps block (reachFunction name) := by
  refine .change fun context => ?_
  split
  · exact Declares.declare context _
  · exact refl context

variable [Frames place block] [IsPreorder Context place] [here : Tolerates place strict line]
  [there : Tolerates block strict line]

include here there

theorem functionBody_keeps {α : Type} {body : Gen α} (keeps : Gen.Keeps block body) :
    Gen.Keeps place (functionBody params returns line body) :=
  .bind parameterBindings_keeps fun _ => keeps.inBlock.inFunction

omit [IsPreorder Context place] here in
theorem generateDeclaration_keeps {value : Gen Value} {constant : Bool}
    (keeps : Gen.Keeps place value) :
    Gen.Keeps block (generateDeclaration name type value constant line) := by
  have declared (recorded : Ty) : Gen.Keeps block (Gen.change fun context =>
      context.declare ⟨name, .value recorded, constant⟩) :=
    .change fun before => Declares.declare before _
  refine .bind checkVariableType_keeps fun _ => .bind .context fun _ =>
    .guarded (.report fun _ => trivial) (.bind (.widen place keeps.attempt) fun value? => ?_)
  cases value? with
  | none => exact .bind .pure fun _ => .guarded (declared _) .stop
  | some value =>
    exact .bind (.expect (Ty.checkAssignment_regular _ _)) fun _ => .bind .pure fun _ =>
      .guarded (declared _) .pure

end Blocks

end Parts

/-! ### The recursion -/

theorem generateValue_await (line : Nat) {operand : Token}
    (plain : ∀ base steps arguments, operand ≠ .call base steps arguments) :
    generateValue line (.await operand) = do
      let value ← generateValue line operand
      return ⟨value.type, .await value.code⟩ := by
  rw [generateValue]
  exact plain

theorem generateExpression_value (line : Nat) (before : Operand) {token : Token}
    (value : token.isValue = true) (rest : List Token) :
    generateExpression line before (token :: rest) = (do
      let next ← before.afterValue line (generateValue line token)
      generateExpression line next rest) := by
  rw [generateExpression]
  rintro op rfl
  contradiction

section Recursion

variable {place block : Context → Context → Prop} {strict : Prop}

/-- What expressions may report on a line, statements may report there too. -/
theorem Tolerates.widen [Frames place block] {line : Nat} (here : Tolerates place strict line) :
    Tolerates block strict line where
  report context _ admitted := Frames.widen (here.report context admitted)

def Tolerated (place : Context → Context → Prop) (strict : Prop) (spots : List Spot) : Prop :=
  Good (fun spot => Tolerates place strict spot.line) spots

variable [frames : Frames place block] [order : IsPreorder Context block]
  [declares : Declares block]

include frames order declares

namespace Gen.Keeps

theorem hoist (lines : Tolerated place strict (bodySpots body)) : Keeps block (hoist body) := by
  induction body with
  | nil => exact .pure
  | cons stmt rest ih =>
    obtain ⟨line, kind⟩ := stmt
    rw [bodySpots, Tolerated, Good.cons_iff, Good.append_iff] at lines
    have here : Tolerates block strict line := lines.1.widen
    have others := ih lines.2.2
    unfold TypedScript.hoist
    split
    · contradiction
    · rename_i line' name params returns body rest' same
      obtain ⟨first, rfl⟩ := List.cons.inj same
      obtain ⟨rfl, -⟩ := Stmt.mk.inj first
      exact .bind .context fun _ => .ite (.bind (.report fun _ => trivial) fun _ => others)
        (.bind (.change fun before => Declares.declare before _) fun _ => others)
    · rename_i same
      obtain ⟨-, rfl⟩ := List.cons.inj same
      exact others

theorem level {step : Gen (List Target.Stmt)} (lines : Tolerated place strict (bodySpots body))
    (keeps : Keeps block step) :
    Keeps block (do TypedScript.hoist body; step) :=
  .bind (hoist lines) fun _ => keeps

variable [IsPreorder Context place]

mutual

theorem value {line : Nat} [here : Tolerates place strict line] : (token : Token) →
    Tolerated place strict token.spots →
    (strict → token.isValue = true ∧ token.isAllowed = true) → (strict → Sound token.parts) →
    Keeps place (generateValue line token)
  | .number _, _, _, _ | .text _, _, _, _ | .bool _, _, _, _ | .null, _, _, _
  | .object _, _, _, _ | .array _, _, _, _ => by
    rw [generateValue]
    exact .pure
  | .operator op, _, formed, _ => by
    rw [generateValue]
    exact .fail fun given => absurd (formed given).1 Bool.false_ne_true
  | .group tokens, lines, _, sound => by
    simp only [Token.parts, Every.cons_iff, imp_and] at sound
    rw [generateValue]
    exact .bind (expression (.wanted none []) tokens lines sound.1 sound.2) fun _ => .pure
  | .access base steps, lines, _, sound => by
    simp only [Token.parts, Every.cons_iff, imp_and] at sound
    rw [generateValue]
    exact resolveWith_keeps fun taken start => Keeps.steps false taken start steps lines sound.2
  | .call base steps arguments, lines, _, sound => by
    rw [Token.spots, Tolerated, Good.append_iff] at lines
    simp only [Token.parts, Every.cons_iff, Every.append_iff, imp_and] at sound
    rw [generateValue]
    exact generateCall_keeps (Keeps.arguments arguments lines.2 sound.2.2)
      (callTarget_keeps fun beforeLast taken start =>
        Keeps.steps beforeLast taken start steps lines.1 sound.2.1)
  | .lambda params body, lines, _, sound => by
    have there : Tolerates block strict line := here.widen
    simp only [Token.parts, Every.append_iff, imp_and] at sound
    rw [generateValue]
    exact .bind (functionBody_keeps (level lines (statements false body lines sound.2
      (absurd · Bool.false_ne_true)))) fun _ => .pure
  | .await operand, lines, formed, sound => by
    rw [Token.spots] at lines
    have awaited : Keeps place (generateValue line operand) :=
      value operand lines (fun given => Token.isAllowed_awaited (formed given).2) sound
    cases operand with
    | call base steps arguments =>
      rw [Token.spots, Tolerated, Good.append_iff] at lines
      simp only [Token.parts, Every.cons_iff, Every.append_iff, imp_and] at sound
      rw [generateValue]
      exact .bind (generateCall_keeps (Keeps.arguments arguments lines.2 sound.2.2)
        (callTarget_keeps fun beforeLast taken start =>
          Keeps.steps beforeLast taken start steps lines.1 sound.2.1)) fun _ => .pure
    | _ =>
      rw [generateValue_await line (by simp)]
      exact .bind awaited fun _ => .pure

/-- **Tokens that continue an expression.** -/
theorem expression {line : Nat} [here : Tolerates place strict line] (before : Operand) :
    (tokens : List Token) → Tolerated place strict (tokensSpots tokens) →
    (strict → before.Continues tokens) → (strict → Sound (tokensParts tokens)) →
    Keeps place (generateExpression line before tokens)
  | [], _, continues, _ => by
    rw [generateExpression]
    exact atEnd_keeps continues
  | token :: rest, lines, continues, sound => by
    rw [tokensSpots, Tolerated, Good.append_iff] at lines
    simp only [tokensParts, Every.append_iff, imp_and] at sound
    have operand (isValue : token.isValue = true) : Keeps place (generateValue line token) :=
      value token lines.1 (fun given =>
        ⟨isValue, (continues given).wellFormed.allowed token List.mem_cons_self⟩) sound.1
    have others (next : Operand) (continues : strict → next.Continues rest) :
        Keeps place (generateExpression line next rest) :=
      expression next rest lines.2 continues sound.2
    cases isValue : token.isValue with
    | false =>
      obtain ⟨op, rfl⟩ := Token.exists_operator isValue
      rw [generateExpression]
      exact .bindYields
        (afterOperator_keeps fun given => (continues given).wellFormed.operator_plain)
        (fun before next found given => afterOperator_yields
          (continues given).wellFormed.behind_operator before next found) others
    | true =>
      rw [generateExpression_value line before isValue]
      exact .bindYields
        (afterValue_keeps (fun given => (continues given).wanted isValue) (operand isValue))
        (fun before next found given => afterValue_yields
          ((continues given).wellFormed.behind_value isValue) before next found) others

theorem step {line : Nat} [here : Tolerates place strict line] (receiver : Value) : (step : Step) →
    Tolerated place strict (stepsSpots [step]) → (strict → Sound (stepsParts [step])) →
    Keeps place (generateStep line receiver step)
  | .property name, _, _ => by
    rw [generateStep]
    exact accessMember_keeps
  | .index tokens, lines, sound => by
    rw [stepsSpots, Tolerated, Good.append_iff] at lines
    simp only [stepsParts, Every.cons_iff, Every.append_iff, imp_and] at sound
    rw [generateStep]
    exact accessIndex_keeps (expression (.wanted none []) tokens lines.1 sound.1 sound.2.1)

theorem steps {line : Nat} [here : Tolerates place strict line] (beforeLast : Bool) (taken : Nat)
    (receiver : Value) : (steps : List Step) → Tolerated place strict (stepsSpots steps) →
    (strict → Sound (stepsParts steps)) →
    Keeps place (generateSteps line beforeLast taken receiver steps)
  | [], _, _ => by
    rw [generateSteps]
    exact .pure
  | step :: rest, lines, sound => by
    rw [← List.singleton_append, stepsSpots_append, Tolerated, Good.append_iff] at lines
    simp only [← List.singleton_append (l := rest), stepsParts_append, Every.append_iff,
      imp_and] at sound
    have one : Keeps place (generateStep line receiver step) :=
      Keeps.step receiver step lines.1 sound.1
    have others (taken : Nat) (receiver : Value) :
        Keeps place (generateSteps line beforeLast taken receiver rest) :=
      Keeps.steps beforeLast taken receiver rest lines.2 sound.2
    rw [generateSteps.eq_def]
    refine .ite .pure ?_
    cases taken with
    | succ taken => exact others taken receiver
    | zero => exact .bind one fun next => others 0 next

theorem arguments {line : Nat} [here : Tolerates place strict line] :
    (arguments : List (List Token)) →
    Tolerated place strict (argumentsSpots arguments) →
    (strict → Sound (argumentsParts arguments)) →
    Keeps place (generateArguments line arguments)
  | [], _, _ => by
    rw [generateArguments]
    exact .pure
  | tokens :: rest, lines, sound => by
    rw [argumentsSpots, Tolerated, Good.append_iff] at lines
    simp only [argumentsParts, Every.cons_iff, Every.append_iff, imp_and] at sound
    rw [generateArguments]
    refine .bind (expression (.wanted none []) tokens lines.1 sound.1 sound.2.1).attempt
      fun value? => .bind (Keeps.arguments rest lines.2 sound.2.2) fun others? => ?_
    split <;> exact .pure

/-- **A statement**, if the relation respects its import where it may import. -/
theorem kind {line : Nat} [here : Tolerates place strict line] (toplevel : Bool) : (kind : Kind) →
    Tolerated place strict kind.spots → (strict → Sound kind.parts) →
    (toplevel = true → ∀ path, kind = .imports path → Keeps block (generateImport path true line)) →
    Keeps block (generateKind toplevel line kind)
  | .declare name type value constant, lines, sound, _ => by
    have there : Tolerates block strict line := here.widen
    simp only [Kind.parts, Every.cons_iff, imp_and] at sound
    rw [generateKind]
    exact generateDeclaration_keeps
      (expression (.wanted none []) value lines sound.2.1 sound.2.2)
  | .modify base steps op value, lines, sound, _ => by
    rw [Kind.spots, Tolerated, Good.append_iff] at lines
    simp only [Kind.parts, Every.cons_iff, Every.append_iff, imp_and] at sound
    rw [generateKind]
    exact .widen place (generateModification_keeps (resolveWith_keeps fun taken start =>
        Keeps.steps false taken start steps lines.1 sound.2.1)
      (expression (.wanted none []) value lines.2 sound.2.2.1 sound.2.2.2))
  | .expression tokens, lines, sound, _ => by
    simp only [Kind.parts, Every.cons_iff, imp_and] at sound
    rw [generateKind]
    exact .bind (.widen place (expression (.wanted none []) tokens lines sound.1 sound.2))
      fun _ => .pure
  | .call base steps arguments, lines, sound, _ => by
    rw [Kind.spots, Tolerated, Good.append_iff] at lines
    simp only [Kind.parts, Every.cons_iff, Every.append_iff, imp_and] at sound
    rw [generateKind]
    exact .bind (.widen place (generateCall_keeps (Keeps.arguments arguments lines.2 sound.2.2)
      (callTarget_keeps fun beforeLast taken start =>
        Keeps.steps beforeLast taken start steps lines.1 sound.2.1))) fun _ => .pure
  | .function name params returns body, lines, sound, _ => by
    have there : Tolerates block strict line := here.widen
    simp only [Kind.parts, Every.cons_iff, Every.append_iff, imp_and] at sound
    rw [generateKind]
    exact .bind checkReturnType_keeps fun _ => .bind reachFunction_keeps fun _ =>
      .bind (.widen place (functionBody_keeps (level lines (statements false body lines sound.2.2
        (absurd · Bool.false_ne_true))))) fun _ => .pure
  | .branch condition body otherwise, lines, sound, _ => by
    have there : Tolerates block strict line := here.widen
    rw [Kind.spots, Tolerated, Good.append_iff, Good.append_iff] at lines
    simp only [Kind.parts, Every.cons_iff, Every.append_iff, imp_and] at sound
    rw [generateKind]
    exact .bind (.widen place (generateCondition_keeps
        (expression (.wanted none []) condition lines.1 sound.1 sound.2.1))) fun _ =>
      .bind (.widen place (level lines.2.1 (statements false body lines.2.1 sound.2.2.1
          (absurd · Bool.false_ne_true))).inBlock) fun _ =>
        .bind (.widen place (Keeps.otherwise otherwise lines.2.2 sound.2.2.2)) fun _ => .pure
  | .loop condition body, lines, sound, _ => by
    have there : Tolerates block strict line := here.widen
    rw [Kind.spots, Tolerated, Good.append_iff] at lines
    simp only [Kind.parts, Every.cons_iff, Every.append_iff, imp_and] at sound
    rw [generateKind]
    exact .bind (.widen place (generateCondition_keeps
        (expression (.wanted none []) condition lines.1 sound.1 sound.2.1))) fun _ =>
      .bind (.widen place (level lines.2 (statements false body lines.2 sound.2.2
          (absurd · Bool.false_ne_true))).inBlock) fun _ => .pure
  | .imports path, _, _, imports => by
    have there : Tolerates block strict line := here.widen
    rw [generateKind]
    cases toplevel with
    | true => exact .bind (imports rfl path rfl) fun _ => .stop
    | false => exact .bind generateImport_nested_keeps fun _ => .stop
  | .returns none, _, _, _ => by
    rw [generateKind]
    exact .widen place generateReturn_keeps
  | .returns (some tokens), lines, sound, _ => by
    simp only [Kind.parts, Every.cons_iff, imp_and] at sound
    rw [generateKind]
    exact .widen place (generateReturnOf_keeps
      (expression (.wanted none []) tokens lines sound.1 sound.2))

theorem otherwise {line : Nat} [here : Tolerates place strict line] : (otherwise : Otherwise) →
    Tolerated place strict otherwise.spots → (strict → Sound otherwise.parts) →
    Keeps place (generateOtherwise line otherwise)
  | .nothing, _, _ => by
    rw [generateOtherwise]
    exact .pure
  | .block body, lines, sound => by
    have there : Tolerates block strict line := here.widen
    rw [generateOtherwise]
    exact .bind (level lines (statements false body lines sound
      (absurd · Bool.false_ne_true))).inBlock fun _ => .pure
  | .elseIf line condition body otherwise, lines, sound => by
    rw [Otherwise.spots, Tolerated, Good.cons_iff, Good.append_iff, Good.append_iff] at lines
    obtain ⟨next, lines⟩ := lines
    have there : Tolerates block strict line := next.widen
    simp only [Otherwise.parts, Every.cons_iff, Every.append_iff, imp_and] at sound
    rw [generateOtherwise]
    exact .bind (generateCondition_keeps
        (expression (.wanted none []) condition lines.1 sound.1 sound.2.1)) fun _ =>
      .bind (level lines.2.1 (statements false body lines.2.1 sound.2.2.1
          (absurd · Bool.false_ne_true))).inBlock fun _ =>
        .bind (Keeps.otherwise otherwise lines.2.2 sound.2.2.2) fun _ => .pure

/-- **The statements of a block.** -/
theorem statements (toplevel : Bool) : (body : List Stmt) →
    Tolerated place strict (bodySpots body) → (strict → Sound (bodyParts body)) →
    (toplevel = true → ∀ path line, Tolerates place strict line →
      Keeps block (generateImport path true line)) →
    Keeps block (generateStatements toplevel body)
  | [], _, _, _ => by
    rw [generateStatements]
    exact .pure
  | .mk line kind :: rest, lines, sound, imports => by
    rw [bodySpots, Tolerated, Good.cons_iff, Good.append_iff] at lines
    simp only [bodyParts, Every.append_iff, imp_and] at sound
    obtain ⟨here, lines⟩ := lines
    rw [generateStatements, generateStatement]
    exact .bind (Keeps.kind toplevel kind lines.1 sound.1 fun outermost path _ =>
        imports outermost path line here).attempt fun _ =>
      .bind (statements toplevel rest lines.2 sound.2 imports) fun _ => .pure

end

end Gen.Keeps

end Recursion

end TypedScript
