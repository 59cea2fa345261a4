/-
**Less is known, no less is accepted.** A variable of type `any` may stand wherever one of another
type may. So an expression that is accepted stays accepted if some variables are declared as `any`
instead, and at most its own type becomes `any`.
-/

import TypedScript.Proofs.Generation.Emission
import TypedScript.Proofs.Typing.Rules

namespace TypedScript

variable {binding : Binding} {cause : Cause} {before before' : Operand} {base : String}
  {steps : List Step} {walk : Bool → Nat → Value → Gen Value} {receiver receiver' : Value}
  {awaited : Bool}

theorem optionRel_self {α : Type} {related : α → α → Prop}
    (reflexive : ∀ value, related value value) (value? : Option α) :
    Option.Rel related value? value? := by
  cases value? with
  | none => exact .none
  | some value => exact .some (reflexive value)

/-! ### Declarations -/

/-- The second declaration is the first one, or declares the same variable as `any`. -/
inductive Binding.Loosens : Binding → Binding → Prop
  | same (binding : Binding) : Loosens binding binding
  | variable (name : String) (type : Ty) (constant : Bool) :
      Loosens ⟨name, .value type, constant⟩ ⟨name, .value .any, constant⟩

theorem Binding.Loosens.type {looser : Binding} (loosens : binding.Loosens looser) :
    binding.type.Loosens looser.type := by
  cases loosens with
  | same => exact .refl _
  | «variable» => exact .inr rfl

theorem Binding.Loosens.name_eq {looser : Binding} (loosens : binding.Loosens looser) :
    looser.name = binding.name := by
  cases loosens <;> rfl

/-- The same names are declared in the same order, some variables as `any`. -/
def Frame.Loosens (frame looser : Frame) : Prop :=
  List.Forall₂ Binding.Loosens frame.bindings looser.bindings

/-- **The same names are declared in the same blocks**, some variables as `any`. -/
def Scopes.Loosens (scopes looser : Scopes) : Prop :=
  List.Forall₂ Frame.Loosens scopes.frames looser.frames

theorem Scopes.Loosens.refl (scopes : Scopes) : scopes.Loosens scopes :=
  List.forall₂_same.mpr fun _ _ => List.forall₂_same.mpr fun binding _ => .same binding

theorem Frame.Loosens.find? {frame looser : Frame} (loosens : frame.Loosens looser)
    (name : String) : Option.Rel Binding.Loosens (frame.find? name) (looser.find? name) := by
  unfold Frame.Loosens at loosens
  unfold Frame.find?
  generalize frame.bindings = bindings, looser.bindings = bindings' at loosens
  induction loosens with
  | nil => exact .none
  | @cons binding looser _ _ first _ ih =>
    rw [List.find?_cons, List.find?_cons, first.name_eq]
    cases binding.name == name with
    | true => exact .some first
    | false => exact ih

theorem Scopes.Loosens.lookup? {scopes looser : Scopes} (loosens : scopes.Loosens looser)
    (name : String) : Option.Rel Binding.Loosens (scopes.lookup? name) (looser.lookup? name) := by
  unfold Scopes.Loosens at loosens
  unfold Scopes.lookup?
  generalize scopes.frames = frames, looser.frames = frames' at loosens
  induction loosens with
  | nil => exact .none
  | @cons frame looser _ _ first _ ih =>
    have here := first.find? name
    rw [List.findSome?_cons, List.findSome?_cons]
    generalize frame.find? name = found, looser.find? name = found' at here
    cases here with
    | none => exact ih
    | some loosens => exact .some loosens

/-- A place at which the same modules and names are known, some variables as `any`. -/
structure Context.Loosens (context looser : Context) : Prop where
  imports : looser.imports = context.imports
  scopes : context.scopes.Loosens looser.scopes

theorem Context.Loosens.refl (context : Context) : context.Loosens context :=
  ⟨rfl, .refl _⟩

theorem Context.Loosens.module? {context looser : Context} (loosens : context.Loosens looser)
    (name : String) : looser.module? name = context.module? name := by
  unfold Context.module?
  rw [loosens.imports]

theorem use_kept (helper : Helper) (context : Context) :
    (context.use helper).diagnostics = context.diagnostics ∧
      (context.use helper).imports = context.imports ∧
        (context.use helper).scopes = context.scopes := by
  unfold Context.use
  split <;> exact ⟨rfl, rfl, rfl⟩

/-! ### Steps -/

namespace Gen

variable {α β : Type}

theorem reportAll_run (line : Nat) (causes : List Cause) (before : Context) :
    reportAll line causes before = (some (), { before with
      diagnostics := before.diagnostics ++ causes.map fun cause => ⟨cause, line⟩ }) := by
  induction causes generalizing before with
  | nil =>
    rw [List.map_nil, List.append_nil]
    rfl
  | cons cause rest ih =>
    show reportAll line rest (before.report cause line) = _
    rw [ih, List.map_cons, List.append_cons]
    rfl

/-- **The second step follows the first one**: run where less is known, it has a related result and
reports nothing, whenever the first one has a result and reports nothing. -/
structure Follows (related : α → α → Prop) (step looser : Gen α) : Prop where
  adds : ∀ before, before.diagnostics <+: (step before).2.diagnostics
  accepts : ∀ before before' value, before.Loosens before' → (step before).1 = some value →
    (step before).2.diagnostics = before.diagnostics →
      ∃ value', (looser before').1 = some value' ∧
        (looser before').2.diagnostics = before'.diagnostics ∧ related value value' ∧
          (step before).2.Loosens (looser before').2

namespace Follows

variable {related : α → α → Prop} {step looser : Gen α}

theorem pure {value value' : α} (holds : related value value') :
    Follows related (Pure.pure value) (Pure.pure value') where
  adds _ := List.prefix_rfl
  accepts := by
    rintro before before' _ loosens ⟨⟩ _
    exact ⟨value', rfl, rfl, holds, loosens⟩

/-- Nothing need follow a step that gives up. -/
theorem fail {line : Nat} : Follows related (Gen.fail cause line) looser where
  adds _ := List.prefix_append _ _
  accepts _ _ _ _ found := absurd found (by simp [Gen.fail])

theorem stop : Follows related Gen.stop looser where
  adds _ := List.prefix_rfl
  accepts _ _ _ _ found := absurd found (by simp [Gen.stop])

theorem report {line : Nat} {looser : Gen Unit} {related : Unit → Unit → Prop} :
    Follows related (Gen.report cause line) looser where
  adds _ := List.prefix_append _ _
  accepts before _ _ _ _ quiet := by
    have grown : before.diagnostics ++ [⟨cause, line⟩] = before.diagnostics := quiet
    simp at grown

theorem bind {related' : β → β → Prop} {next next' : α → Gen β}
    (first : Follows related step looser) (reflexive : ∀ value, related value value)
    (second : ∀ value value', related value value' →
      Follows related' (next value) (next' value')) :
    Follows related' (step >>= next) (looser >>= next') := by
  have run (before : Context) : (step >>= next) before = step.andThen next before := rfl
  constructor
  · intro before
    have added := first.adds before
    rw [run]
    unfold andThen
    rcases outcome : step before with ⟨_ | value, after⟩
    · rwa [outcome] at added
    · rw [outcome] at added
      exact added.trans ((second value value (reflexive value)).adds after)
  · intro before before' result loosens found quiet
    have added := first.adds before
    have accepts := first.accepts before before'
    have runs := run before
    unfold andThen at runs
    rcases outcome : step before with ⟨_ | value, after⟩
    · rw [outcome] at runs
      rw [runs] at found
      exact absurd found (by simp)
    · rw [outcome] at added accepts runs
      rw [runs] at found quiet ⊢
      -- Nothing is taken back in the second half, so nothing was reported in the first one.
      have later := (second value value (reflexive value)).adds after
      have middle : after.diagnostics = before.diagnostics :=
        (later.trans (quiet ▸ List.prefix_rfl)).eq_of_length_le added.length_le
      obtain ⟨value', found', quiet', holds, behind⟩ := accepts value loosens rfl middle
      obtain ⟨result', last, silent, holds', behind'⟩ :=
        (second value value' holds).accepts after (looser before').2 result behind found
          (quiet.trans middle.symm)
      have runs' : (looser >>= next') before' = next' value' (looser before').2 := by
        show looser.andThen next' before' = _
        unfold andThen
        rcases other : looser before' with ⟨_ | _, _⟩ <;> rw [other] at found' <;> cases found'
        rfl
      rw [runs']
      exact ⟨result', last, silent.trans quiet', holds', behind'⟩

theorem ite {condition : Prop} [Decidable condition] {other looser' : Gen α}
    (yes : condition → Follows related step looser)
    (no : ¬condition → Follows related other looser') :
    Follows related (if condition then step else other)
      (if condition then looser else looser') := by
  split
  · exact yes ‹_›
  · exact no ‹_›

theorem context : Follows Context.Loosens Gen.context Gen.context where
  adds _ := List.prefix_rfl
  accepts := by
    rintro before before' _ loosens ⟨⟩ _
    exact ⟨before', rfl, rfl, loosens, loosens⟩

theorem change {step step' : Context → Context}
    (kept : ∀ context, (step context).diagnostics = context.diagnostics ∧
      (step context).imports = context.imports ∧ (step context).scopes = context.scopes)
    (kept' : ∀ context, (step' context).diagnostics = context.diagnostics ∧
      (step' context).imports = context.imports ∧ (step' context).scopes = context.scopes) :
    Follows (fun _ _ => True) (Gen.change step) (Gen.change step') where
  adds before := (kept before).1 ▸ List.prefix_rfl
  accepts := by
    rintro before before' ⟨⟩ loosens _ _
    obtain ⟨_, imports, scopes⟩ := kept before
    obtain ⟨quiet, imports', scopes'⟩ := kept' before'
    refine ⟨(), rfl, quiet, trivial, ?_, ?_⟩
    · exact imports'.trans (loosens.imports.trans imports.symm)
    · show Scopes.Loosens (step before).scopes (step' before').scopes
      rw [scopes, scopes']
      exact loosens.scopes

theorem leftOut {note : Gen Unit} (noted : Follows (fun _ _ => True) note (Pure.pure ()))
    (rest : Follows related step looser) : Follows related (note >>= fun _ => step) looser := by
  show Follows related _ (Pure.pure () >>= fun _ => looser)
  exact bind noted (fun _ => trivial) fun _ _ _ => rest

theorem ofExcept {outcome outcome' : Except Cause α} {line : Nat}
    (follows : ∀ value, outcome = .ok value →
      ∃ value', outcome' = .ok value' ∧ related value value') :
    Follows related (Gen.ofExcept outcome line) (Gen.ofExcept outcome' line) := by
  cases outcome with
  | error cause => exact fail
  | ok value =>
    obtain ⟨value', rfl, holds⟩ := follows value rfl
    exact pure holds

theorem expect {check check' : Except Cause Unit} {line : Nat}
    (follows : check = .ok () → check' = .ok ()) :
    Follows (fun _ _ => True) (Gen.expect check line) (Gen.expect check' line) := by
  cases check with
  | error cause => exact report
  | ok =>
    rw [follows rfl]
    exact pure trivial

theorem reportAll {causes causes' : List Cause} {line : Nat}
    (follows : causes = [] → causes' = []) :
    Follows (fun _ _ => True) (Gen.reportAll line causes) (Gen.reportAll line causes') where
  adds before := by
    rw [reportAll_run]
    exact List.prefix_append _ _
  accepts := by
    rintro before before' ⟨⟩ loosens _ quiet
    rw [reportAll_run] at quiet
    have none : causes = [] := by simpa using quiet
    rw [none, follows none]
    exact ⟨(), rfl, rfl, trivial, loosens⟩

theorem attempt {kind : α → Prop} (follows : Follows related step looser)
    (delivers : Delivers True step kind) :
    Follows (Option.Rel related) step.attempt looser.attempt where
  adds before := follows.adds before
  accepts := by
    rintro before before' value? loosens found quiet
    obtain ⟨value, same, _⟩ := delivers.result_of_quiet before quiet
    obtain ⟨value', same', quiet', holds, behind⟩ :=
      follows.accepts before before' value loosens same quiet
    obtain rfl : (step before).1 = value? := Option.some.inj found
    refine ⟨(looser before').1, rfl, quiet', ?_, behind⟩
    rw [same, same']
    exact .some holds

end Follows

end Gen

/-! ### Values -/

/-- Code may differ: only the type decides what is accepted. -/
def Value.Loosens (value looser : Value) : Prop :=
  value.type.Loosens looser.type

theorem Value.Loosens.refl (value : Value) : value.Loosens value :=
  Ty.Loosens.refl _

/-- Operands of the same types, or of `any`. -/
inductive Operand.Loosens : Operand → Operand → Prop
  | wanted (prefixes : List Operator) : Loosens (.wanted none prefixes) (.wanted none prefixes)
  | right {left looser : Value} (op : Operator) (prefixes : List Operator)
      (loosens : left.Loosens looser) :
      Loosens (.wanted (some (left, op)) prefixes) (.wanted (some (looser, op)) prefixes)
  | complete {value looser : Value} (loosens : value.Loosens looser) :
      Loosens (.complete value) (.complete looser)

theorem Operand.Loosens.refl (before : Operand) : before.Loosens before := by
  rcases before with ⟨_ | ⟨left, op⟩, prefixes⟩ | value
  · exact .wanted prefixes
  · exact .right op prefixes (.refl left)
  · exact .complete (.refl value)

section Values

variable {line : Nat} {value looser : Value}

theorem applyPrefixes_follows (prefixes : List Operator) (loosens : value.Loosens looser) :
    Gen.Follows Value.Loosens (applyPrefixes line prefixes value)
      (applyPrefixes line prefixes looser) := by
  induction prefixes generalizing value looser with
  | nil => exact .pure loosens
  | cons op rest ih =>
    exact .bind (.ofExcept fun _ => Ty.applyUnary_loosens loosens) Ty.Loosens.refl
      fun _ _ loosens => ih loosens

theorem afterOperator_follows (op : Operator) (loosens : before.Loosens before') :
    Gen.Follows Operand.Loosens (before.afterOperator line op) (before'.afterOperator line op) := by
  cases loosens with
  | wanted prefixes => exact .ite (fun _ => .pure (.wanted _)) fun _ => .fail
  | right left prefixes loosens =>
    exact .ite (fun _ => .pure (.right left _ loosens)) fun _ => .fail
  | complete loosens => exact .ite (fun _ => .pure (.right op _ loosens)) fun _ => .fail

theorem afterValue_follows {step step' : Gen Value}
    (follows : Gen.Follows Value.Loosens step step') (loosens : before.Loosens before') :
    Gen.Follows Operand.Loosens (before.afterValue line step) (before'.afterValue line step') := by
  cases loosens with
  | complete => exact .fail
  | wanted prefixes =>
    refine .bind follows .refl fun _ _ loosens => ?_
    refine .bind (applyPrefixes_follows prefixes loosens) .refl fun _ _ loosens => ?_
    exact .bind (.pure loosens) .refl fun _ _ loosens => .pure (.complete loosens)
  | right op prefixes left =>
    refine .bind follows .refl fun _ _ loosens => ?_
    refine .bind (applyPrefixes_follows prefixes loosens) .refl fun _ _ right => ?_
    refine .bind (.bind (.ofExcept fun _ => Ty.applyBinary_loosens left right) Ty.Loosens.refl
      fun _ _ loosens => .pure loosens) .refl fun _ _ loosens => .pure (.complete loosens)

theorem atEnd_follows (loosens : before.Loosens before') :
    Gen.Follows Value.Loosens (before.atEnd line) (before'.atEnd line) := by
  cases loosens with
  | wanted | right => exact .fail
  | complete loosens => exact .pure loosens

/-! #### Accesses -/

/-- The start of an access takes up as many steps as before. -/
def StartLoosens (start looser : Value × Nat) : Prop :=
  start.1.Loosens looser.1 ∧ looser.2 = start.2

theorem StartLoosens.refl (start : Value × Nat) : StartLoosens start start :=
  ⟨.refl _, rfl⟩

theorem resolveBase_follows (base : String) (steps : List Step) :
    Gen.Follows StartLoosens (resolveBase base steps line) (resolveBase base steps line) := by
  refine .bind .context .refl fun context context' loosens => ?_
  have found := loosens.scopes.lookup? base
  rw [loosens.module? base]
  generalize context.scopes.lookup? base = binding?, context'.scopes.lookup? base = binding?'
    at found
  cases found with
  | some loosens => exact .pure ⟨loosens.type, rfl⟩
  | none =>
    -- Modules are the same in both places.
    cases context.module? base with
    | none => exact .fail
    | some module =>
      dsimp only
      split
      · split
        · exact .pure (.refl _)
        · exact .fail
      · exact .pure (.refl _)

theorem resolveWith_follows {walk : Nat → Value → Gen Value}
    (follows : ∀ taken start start', start.Loosens start' →
      Gen.Follows Value.Loosens (walk taken start) (walk taken start')) :
    Gen.Follows Value.Loosens (resolveWith base steps line walk)
      (resolveWith base steps line walk) := by
  refine .bind (resolveBase_follows base steps) .refl fun start start' loosens => ?_
  obtain ⟨start, taken⟩ := start
  obtain ⟨start', taken'⟩ := start'
  obtain ⟨loosens, rfl⟩ := loosens
  exact follows _ _ _ loosens

theorem accessMember_follows (name : String) (loosens : receiver.Loosens receiver') :
    Gen.Follows Value.Loosens (accessMember receiver name line)
      (accessMember receiver' name line) := by
  refine .bind (.ofExcept fun _ => Ty.member_loosens loosens) (fun _ => .inl rfl)
    fun member member' found => .pure ?_
  rcases found with rfl | rfl
  · exact .refl _
  · exact Ty.loosens_any _

theorem accessIndex_follows {index index' : Gen Value} (loosens : receiver.Loosens receiver')
    (follows : Gen.Follows Value.Loosens index index') :
    Gen.Follows Value.Loosens (accessIndex receiver index line)
      (accessIndex receiver' index' line) := by
  refine .bind (.ofExcept fun _ => Ty.indexed_loosens loosens) (fun _ => ⟨.refl _, .refl _⟩)
    fun _ _ found => ?_
  refine .bind follows .refl fun _ _ index => ?_
  exact .bind (.expect (Ty.checkAssignment_loosens index found.2)) (fun _ => trivial)
    fun _ _ _ => .pure found.1

end Values

/-! ### Calls -/

/-- What is called takes the same arguments, or anything. -/
inductive CallTarget.Loosens : CallTarget → CallTarget → Prop
  | checked (code code' : Target.Expr) (receiver receiver' : Option Target.Expr) (params : List Ty)
      (variadic : Bool) (returns : Ty) (async : Bool) :
      Loosens (.checked code receiver params variadic returns async)
        (.checked code' receiver' params variadic returns async)
  | unchecked (target : CallTarget) (code : Target.Expr) : Loosens target (.unchecked code)

theorem CallTarget.Loosens.refl (target : CallTarget) : target.Loosens target := by
  cases target with
  | checked => exact .checked ..
  | unchecked => exact .unchecked ..

section Calls

variable {line : Nat}

theorem callValue_any (code : Target.Expr) (name : String) :
    callValue ⟨.any, code⟩ name line = pure (.unchecked code) := by
  unfold callValue
  rw [if_pos (by simp [Ty.category_any])]

theorem callValue_follows {value looser : Value} (name : String) (loosens : value.Loosens looser) :
    Gen.Follows CallTarget.Loosens (callValue value name line) (callValue looser name line) := by
  obtain ⟨type, code⟩ := value
  obtain ⟨type', code'⟩ := looser
  rcases loosens with same | same
  · obtain rfl : type' = type := same
    exact .ite (fun _ => .pure (.unchecked _ _)) fun _ => .fail
  · obtain rfl : type' = .any := same
    rw [callValue_any]
    unfold callValue
    split
    · exact .pure (.unchecked _ _)
    · exact .fail

theorem callName_follows (name : String) :
    Gen.Follows CallTarget.Loosens (callName name line) (callName name line) := by
  refine .bind .context .refl fun context context' loosens => ?_
  have found := loosens.scopes.lookup? name
  rw [loosens.module? name]
  generalize context.scopes.lookup? name = binding?, context'.scopes.lookup? name = binding?'
    at found
  cases found with
  | none => exact .ite (fun _ => .fail) fun _ => .fail
  | @some binding _ loosens =>
    cases loosens with
    | «variable» name type constant => exact callValue_follows _ (Ty.loosens_any type)
    | same =>
      obtain ⟨_, meaning, _⟩ := binding
      cases meaning with
      | value type => exact callValue_follows _ (.refl _)
      | function => exact .pure (.refl _)

theorem callModule_follows (module : Module) (base member : String) :
    Gen.Follows CallTarget.Loosens (callModule module base member line)
      (callModule module base member line) := by
  unfold callModule
  split
  · exact .pure (.refl _)
  · split
    · exact callValue_follows _ (.refl _)
    · exact .fail

theorem callMember_follows (name : String) (loosens : receiver.Loosens receiver') :
    Gen.Follows CallTarget.Loosens (callMember receiver name line)
      (callMember receiver' name line) := by
  refine .bind (.ofExcept fun _ => Ty.member_loosens loosens) (fun _ => .inl rfl)
    fun member member' found => ?_
  rcases found with rfl | rfl
  · refine .ite (fun _ => callValue_follows _ (.refl _)) fun _ => ?_
    split
    · exact .pure (.checked ..)
    · exact .bind (.change (use_kept _) (use_kept _)) (fun _ => trivial)
        fun _ _ _ => .pure (.checked ..)
  · have loose : (Member.ofType .any).loose = true := rfl
    rw [if_pos loose]
    split
    · exact callValue_follows _ (Ty.loosens_any _)
    · show Gen.Follows CallTarget.Loosens _ (callValue ⟨.any, receiver'.code.member name⟩ name line)
      rw [callValue_any]
      split
      · exact .pure (.unchecked ..)
      · exact .leftOut (.change (use_kept _) fun _ => ⟨rfl, rfl, rfl⟩) (.pure (.unchecked ..))

theorem callSteps_follows (follows : ∀ beforeLast taken start start', start.Loosens start' →
      Gen.Follows Value.Loosens (walk beforeLast taken start) (walk beforeLast taken start')) :
    Gen.Follows CallTarget.Loosens (callSteps base steps line walk)
      (callSteps base steps line walk) := by
  unfold callSteps
  split
  · exact callName_follows base
  · exact .bind (resolveWith_follows (follows false)) .refl fun _ _ loosens =>
      callValue_follows _ loosens
  · exact .bind (resolveWith_follows (follows true)) .refl fun _ _ loosens =>
      callMember_follows _ loosens

theorem callTarget_follows (follows : ∀ beforeLast taken start start', start.Loosens start' →
      Gen.Follows Value.Loosens (walk beforeLast taken start) (walk beforeLast taken start')) :
    Gen.Follows CallTarget.Loosens (callTarget base steps line walk)
      (callTarget base steps line walk) := by
  refine .bind .context .refl fun context context' loosens => ?_
  have found := loosens.scopes.lookup? base
  rw [loosens.module? base]
  generalize context.scopes.lookup? base = binding?, context'.scopes.lookup? base = binding?'
    at found
  cases found with
  | none =>
    split
    · exact callModule_follows _ _ _
    · exact callSteps_follows follows
  | some => exact callSteps_follows follows

theorem argumentsLoosen_refl (arguments? : Option (List Value)) :
    Option.Rel (List.Forall₂ Value.Loosens) arguments? arguments? :=
  optionRel_self (fun _ => List.forall₂_same.mpr fun value _ => .refl value) arguments?

theorem call_follows {target target' : CallTarget} {arguments arguments' : List Value}
    (loosens : target.Loosens target') (given : List.Forall₂ Value.Loosens arguments arguments') :
    Gen.Follows Value.Loosens (target.call arguments awaited line)
      (target'.call arguments' awaited line) := by
  cases loosens with
  | checked code code' receiver receiver' params variadic returns async =>
    have types : List.Forall₂ Ty.Loosens (arguments.map Value.type) (arguments'.map Value.type) :=
      List.forall₂_map_left_iff.mpr (List.forall₂_map_right_iff.mpr given)
    exact .bind (.reportAll (Ty.checkArguments_loosens types)) (fun _ => trivial)
      fun _ _ _ => .pure (.refl _)
  | unchecked target code =>
    cases target with
    | unchecked => exact .pure (Ty.loosens_any _)
    | checked => exact .leftOut (.reportAll fun _ => rfl) (.pure (Ty.loosens_any _))

theorem generateCall_follows {arguments arguments' : Gen (Option (List Value))}
    {target target' : Gen CallTarget}
    (given : Gen.Follows (Option.Rel (List.Forall₂ Value.Loosens)) arguments arguments')
    (follows : Gen.Follows CallTarget.Loosens target target') :
    Gen.Follows Value.Loosens (generateCall awaited line arguments target)
      (generateCall awaited line arguments' target') := by
  refine .bind given argumentsLoosen_refl fun _ _ values => ?_
  refine .bind follows .refl fun _ _ loosens => ?_
  cases values with
  | none => exact .stop
  | some values => exact call_follows loosens values

end Calls

/-! ### The recursion -/

mutual

def tokenLambdaFree : Token → Bool
  | .group tokens => tokensLambdaFree tokens
  | .access _ steps => stepsLambdaFree steps
  | .call _ steps arguments => stepsLambdaFree steps && argumentsLambdaFree arguments
  | .lambda .. => false
  | .await operand => tokenLambdaFree operand
  | _ => true

/-- **No lambda stands in an expression.** -/
def tokensLambdaFree : List Token → Bool
  | [] => true
  | token :: rest => tokenLambdaFree token && tokensLambdaFree rest

def stepLambdaFree : Step → Bool
  | .property _ => true
  | .index tokens => tokensLambdaFree tokens

def stepsLambdaFree : List Step → Bool
  | [] => true
  | step :: rest => stepLambdaFree step && stepsLambdaFree rest

def argumentsLambdaFree : List (List Token) → Bool
  | [] => true
  | tokens :: rest => tokensLambdaFree tokens && argumentsLambdaFree rest

end

mutual

/-- One operand of an expression. -/
theorem generateValue_follows (line : Nat) (token : Token) (free : tokenLambdaFree token = true) :
    Gen.Follows Value.Loosens (generateValue line token) (generateValue line token) := by
  cases token with
  | number | text | bool | null | object | array =>
    rw [generateValue]
    exact .pure (.refl _)
  | operator op =>
    rw [generateValue]
    exact .fail
  | lambda => exact absurd free Bool.false_ne_true
  | group tokens =>
    rw [generateValue]
    exact .bind (generateExpression_follows line tokens free (.refl _)) .refl
      fun _ _ loosens => .pure loosens
  | access base steps =>
    rw [generateValue]
    exact resolveWith_follows fun taken _ _ loosens =>
      generateSteps_follows line false taken steps free loosens
  | call base steps arguments =>
    rw [generateValue]
    rw [tokenLambdaFree, Bool.and_eq_true] at free
    exact generateCall_follows (generateArguments_follows line arguments free.2)
      (callTarget_follows fun beforeLast taken _ _ loosens =>
        generateSteps_follows line beforeLast taken steps free.1 loosens)
  | await operand =>
    have plain := generateValue_follows line operand free
    cases operand with
    | call base steps arguments =>
      rw [generateValue]
      rw [tokenLambdaFree, tokenLambdaFree, Bool.and_eq_true] at free
      exact .bind (generateCall_follows (generateArguments_follows line arguments free.2)
        (callTarget_follows fun beforeLast taken _ _ loosens =>
          generateSteps_follows line beforeLast taken steps free.1 loosens)) .refl
        fun _ _ loosens => .pure loosens
    | _ =>
      rw [generateValue_await line (by intro _ _ _ same; cases same)]
      exact .bind plain .refl fun _ _ loosens => .pure loosens

/-- Expressions without lambdas, by recursion over the script. -/
theorem generateExpression_follows (line : Nat) (tokens : List Token)
    (free : tokensLambdaFree tokens = true) {before before' : Operand}
    (loosens : before.Loosens before') :
    Gen.Follows Value.Loosens (generateExpression line before tokens)
      (generateExpression line before' tokens) := by
  cases tokens with
  | nil =>
    rw [generateExpression, generateExpression]
    exact atEnd_follows loosens
  | cons token rest =>
    rw [tokensLambdaFree, Bool.and_eq_true] at free
    have operand := generateValue_follows line token free.1
    cases isValue : token.isValue with
    | true =>
      rw [generateExpression_value line before isValue,
        generateExpression_value line before' isValue]
      exact .bind (afterValue_follows operand loosens) .refl fun _ _ loosens =>
        generateExpression_follows line rest free.2 loosens
    | false =>
      obtain ⟨op, rfl⟩ := Token.exists_operator isValue
      rw [generateExpression, generateExpression]
      exact .bind (afterOperator_follows op loosens) .refl fun _ _ loosens =>
        generateExpression_follows line rest free.2 loosens

theorem generateStep_follows (line : Nat) (step : Step) (free : stepLambdaFree step = true)
    {receiver receiver' : Value} (loosens : receiver.Loosens receiver') :
    Gen.Follows Value.Loosens (generateStep line receiver step)
      (generateStep line receiver' step) := by
  cases step with
  | property name =>
    rw [generateStep, generateStep]
    exact accessMember_follows name loosens
  | index tokens =>
    rw [generateStep, generateStep]
    exact accessIndex_follows loosens (generateExpression_follows line tokens free (.refl _))

theorem generateSteps_follows (line : Nat) (beforeLast : Bool) (taken : Nat) (steps : List Step)
    (free : stepsLambdaFree steps = true) {receiver receiver' : Value}
    (loosens : receiver.Loosens receiver') :
    Gen.Follows Value.Loosens (generateSteps line beforeLast taken receiver steps)
      (generateSteps line beforeLast taken receiver' steps) := by
  cases steps with
  | nil =>
    rw [generateSteps, generateSteps]
    exact .pure loosens
  | cons step rest =>
    rw [stepsLambdaFree, Bool.and_eq_true] at free
    rw [generateSteps.eq_def, generateSteps.eq_def line beforeLast taken receiver']
    refine .ite (fun _ => .pure loosens) fun _ => ?_
    cases taken with
    | succ taken => exact generateSteps_follows line beforeLast taken rest free.2 loosens
    | zero =>
      exact .bind (generateStep_follows line step free.1 loosens) .refl fun _ _ loosens =>
        generateSteps_follows line beforeLast 0 rest free.2 loosens

theorem generateArguments_follows (line : Nat) (arguments : List (List Token))
    (free : argumentsLambdaFree arguments = true) :
    Gen.Follows (Option.Rel (List.Forall₂ Value.Loosens)) (generateArguments line arguments)
      (generateArguments line arguments) := by
  cases arguments with
  | nil =>
    rw [generateArguments]
    exact .pure (.some .nil)
  | cons tokens rest =>
    rw [argumentsLambdaFree, Bool.and_eq_true] at free
    rw [generateArguments]
    refine .bind (.attempt (generateExpression_follows line tokens free.1 (.refl _))
      (generateTokens_code line tokens))
        (optionRel_self .refl) fun _ _ one => ?_
    refine .bind (generateArguments_follows line rest free.2) argumentsLoosen_refl
      fun _ _ others => ?_
    cases one with
    | none => exact .pure .none
    | some loosens =>
      cases others with
      | none => exact .pure .none
      | some others => exact .pure (.some (.cons loosens others))

end

/-- **An expression that is accepted stays accepted where less is known**: if some variables are
declared as `any`, it still has a value and reports nothing, and its type is the same or `any`. -/
theorem loosening_accepted (tokens : List Token) (line : Nat)
    (free : tokensLambdaFree tokens = true) (context : Context) (looser : Scopes)
    (loosens : context.scopes.Loosens looser) (value : Value)
    (accepted : (generateTokens tokens line context).1 = some value)
    (quiet : (generateTokens tokens line context).2.diagnostics = context.diagnostics) :
    ∃ value', (generateTokens tokens line { context with scopes := looser }).1 = some value' ∧
      (generateTokens tokens line { context with scopes := looser }).2.diagnostics =
        context.diagnostics ∧
      (value'.type = value.type ∨ value'.type = .any) := by
  obtain ⟨value', found, silent, loosened, _⟩ :=
    (generateExpression_follows line tokens free (.refl (.wanted none []))).accepts context
      { context with scopes := looser } value ⟨rfl, loosens⟩ accepted quiet
  exact ⟨value', found, silent, loosened⟩

/-- In `f(xs[i].length) + s` the array may be declared as `any`. Then the member is no longer one of
an element of which the type is known. -/
theorem loosening_accepted_call :
    let tokens : List Token :=
      [.call "f" [] [[.access "xs" [.index [.access "i" []], .property "length"]]], .operator .add,
        .access "s" []]
    let declared (elements : Ty) : Context :=
      { Context.start fun _ => .error .nestedImport with
        scopes := ⟨[], ⟨[⟨"f", .function [⟨"n", .number⟩] .number false false, true⟩,
          ⟨"xs", .value elements, false⟩, ⟨"i", .value .number, false⟩,
          ⟨"s", .value .string, true⟩]⟩⟩ }
    ((generateTokens tokens 1 (declared (.arrayOf .string))).1.map Value.type = some .string ∧
      (generateTokens tokens 1 (declared (.arrayOf .string))).2.diagnostics = []) ∧
    ∃ value', (generateTokens tokens 1 (declared .any)).1 = some value' ∧
      (generateTokens tokens 1 (declared .any)).2.diagnostics = [] ∧
      (value'.type = .string ∨ value'.type = .any) := by
  intro tokens declared
  have loosens : (declared (.arrayOf .string)).scopes.Loosens (declared .any).scopes :=
    .cons (.cons (.same _) (.cons (.variable ..) (.cons (.same _) (.cons (.same _) .nil)))) .nil
  exact ⟨⟨rfl, rfl⟩, loosening_accepted tokens 1 rfl (declared (.arrayOf .string))
    (declared .any).scopes loosens _ rfl rfl⟩

end TypedScript
