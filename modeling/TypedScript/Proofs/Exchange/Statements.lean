/-
**Generating statements side by side.** The steps that make up the generation of a statement, each
from parts that go the same way, and the declaration of functions ahead of the statements of their
block.

* `generateDeclaration_twins`, `generateModification_twins`, `generateCondition_twins`,
  `generateReturnOf_twins`: statements from their parts.
-/

import TypedScript.Proofs.Exchange.Values

namespace TypedScript

variable {fixed quiet : Prop} {returns type : Ty} {value value' : Gen Value}
  {steps steps' : List Step} {base : String}

/-! ### Functions of a block -/

def Context.hoisted (context : Context) (line : Nat) (binding : Binding) : Context :=
  if context.isTaken binding.name then context.report (.alreadyDeclared binding.name) line
  else context.declare binding

/-- What is reported about it. -/
def Context.refused (context : Context) (line : Nat) (binding : Binding) : List Diagnostic :=
  if context.isTaken binding.name then [⟨.alreadyDeclared binding.name, line⟩] else []

namespace Context

variable {context other : Context} {line line' : Nat} {binding binding' : Binding}

theorem diagnostics_hoisted (context : Context) (line : Nat) (binding : Binding) :
    (context.hoisted line binding).diagnostics =
      context.diagnostics ++ context.refused line binding := by
  unfold refused hoisted
  split
  · rfl
  · exact (List.append_nil _).symm

theorem helpers_hoisted (context : Context) (line : Nat) (binding : Binding) :
    (context.hoisted line binding).helpers = context.helpers := by
  unfold hoisted
  split <;> rfl

theorem Matches.refused (matched : context.Matches other) :
    other.refused line binding = context.refused line binding := by
  unfold Context.refused
  rw [matched.isTaken]

theorem Matches.hoisted (matched : context.Matches other) :
    (context.hoisted line binding).Matches (other.hoisted line binding) := by
  unfold Context.hoisted
  rw [matched.isTaken]
  split
  · exact ⟨matched.load, matched.imports, matched.views, matched.returns⟩
  · exact matched.declare binding

theorem isTaken_hoisted {name : String} (distinct : binding.name ≠ name) :
    (context.hoisted line binding).isTaken name = context.isTaken name := by
  unfold hoisted
  split
  · rfl
  · unfold isTaken Scopes.lookupCurrent?
    show (((context.scopes.put binding).current.find? name).isSome || _) = _
    rw [Scopes.current_put, Frame.find?_put, if_neg distinct]
    rfl

theorem Matches.declare_comm (matched : context.Matches other)
    (distinct : binding.name ≠ binding'.name) :
    ((context.declare binding).declare binding').Matches
      ((other.declare binding').declare binding) where
  load := matched.load
  imports := matched.imports
  views := by
    show ((other.scopes.put binding').put binding).views =
      ((context.scopes.put binding).put binding').views
    have twice (scopes : Scopes) (binding binding' : Binding) :
        ((scopes.put binding).put binding').views =
          Function.update (Function.update scopes.current.view binding.name (some binding.reached))
            binding'.name (some binding'.reached) :: scopes.views.tail := by
      rw [Scopes.views_put, Scopes.current_put, Frame.view_put, Scopes.views_put, List.tail_cons]
    rw [twice, twice, matched.views, matched.view_current, Function.update_comm distinct]
  returns := matched.returns

theorem hoisted_of_taken (taken : context.isTaken binding.name = true) :
    context.hoisted line binding = context.report (.alreadyDeclared binding.name) line :=
  if_pos taken

theorem hoisted_of_free (free : context.isTaken binding.name = false) :
    context.hoisted line binding = context.declare binding :=
  if_neg (ne_true_of_eq_false free)

theorem Matches.hoisted_comm (matched : context.Matches other)
    (distinct : binding.name ≠ binding'.name) :
    ((context.hoisted line binding).hoisted line' binding').Matches
      ((other.hoisted line' binding').hoisted line binding) := by
  have behind : (context.hoisted line binding).isTaken binding'.name =
      context.isTaken binding'.name := isTaken_hoisted distinct
  have behind' : (other.hoisted line' binding').isTaken binding.name =
      context.isTaken binding.name := (isTaken_hoisted distinct.symm).trans (matched.isTaken _)
  have same := matched.isTaken binding'.name
  cases taken : context.isTaken binding.name with
  | true =>
    rw [hoisted_of_taken (behind'.trans taken), hoisted_of_taken taken]
    have reported : (context.report (.alreadyDeclared binding.name) line).Matches other :=
      ⟨matched.load, matched.imports, matched.views, matched.returns⟩
    have matched : (Context.hoisted _ line' binding').Matches (other.hoisted line' binding') :=
      reported.hoisted
    exact ⟨matched.load, matched.imports, matched.views, matched.returns⟩
  | false =>
    cases taken' : context.isTaken binding'.name with
    | true =>
      rw [hoisted_of_taken (behind.trans taken'), hoisted_of_free (behind'.trans taken),
        hoisted_of_free taken, hoisted_of_taken (same.trans taken')]
      have matched := matched.declare binding
      exact ⟨matched.load, matched.imports, matched.views, matched.returns⟩
    | false =>
      rw [hoisted_of_free (behind.trans taken'), hoisted_of_free (behind'.trans taken),
        hoisted_of_free taken, hoisted_of_free (same.trans taken')]
      exact matched.declare_comm distinct

end Context

theorem hoist_function (line : Nat) (name : String) (params : List Param) (returns : Ty)
    (body rest : List Stmt) :
    hoist (.mk line (.function name params returns body) :: rest) = (do
      Gen.change fun context =>
        context.hoisted line ⟨name, .function params returns (awaits body) true, true⟩
      hoist rest) := by
  funext before
  simp only [hoist, bind, Gen.andThen, Gen.context, Gen.change]
  unfold Context.hoisted
  cases before.isTaken name <;> rfl

theorem hoisted_paired (line : Nat) (binding : Binding) :
    Gen.Paired fixed (Gen.change fun context => context.hoisted line binding)
      (Gen.change fun context => context.hoisted line binding) := by
  intro before before' matched
  refine ⟨before.refused line binding, ⟨before.diagnostics_hoisted line binding, ?_, ?_, ?_,
    matched.hoisted⟩, .some trivial⟩
  · refine ⟨_, before'.diagnostics_hoisted line binding, ?_⟩
    rw [matched.refused]
    exact ⟨.refl _, fun _ => rfl⟩
  · exact ⟨[], .nothing (before.helpers_hoisted ..), .nothing (before'.helpers_hoisted ..)⟩
  · intro _ same
    exact (before'.helpers_hoisted ..).trans (same.trans (before.helpers_hoisted ..).symm)

/-- Two functions with different names, declared in either order. -/
theorem hoisted_exchange {line line' : Nat} {binding binding' : Binding}
    (distinct : binding.name ≠ binding'.name) :
    Gen.Paired False
      (Gen.change fun context => (context.hoisted line binding).hoisted line' binding')
      (Gen.change fun context => (context.hoisted line' binding').hoisted line binding) := by
  intro before before' matched
  have reported (context : Context) {line line' : Nat} {binding binding' : Binding}
      (distinct : binding.name ≠ binding'.name) :
      ((context.hoisted line binding).hoisted line' binding').diagnostics =
        context.diagnostics ++ (context.refused line binding ++ context.refused line' binding') := by
    rw [Context.diagnostics_hoisted, Context.diagnostics_hoisted, List.append_assoc]
    unfold Context.refused
    rw [Context.isTaken_hoisted distinct]
  have kept (context : Context) (line line' : Nat) (binding binding' : Binding) :
      ((context.hoisted line binding).hoisted line' binding').helpers = context.helpers :=
    (Context.helpers_hoisted ..).trans (context.helpers_hoisted ..)
  refine ⟨_, ⟨reported before distinct, ⟨_, reported before' distinct.symm, ?_, False.elim⟩,
    ⟨[], .nothing (kept ..), .nothing (kept ..)⟩, False.elim, matched.hoisted_comm distinct⟩,
    .some trivial⟩
  rw [matched.refused, matched.refused]
  exact List.perm_append_comm

theorem hoist_paired (block : List Stmt) : Gen.Paired fixed (hoist block) (hoist block) := by
  induction block with
  | nil => exact .pure trivial
  | cons stmt rest ih =>
    obtain ⟨line, kind⟩ := stmt
    cases kind with
    | function name params returns body =>
      rw [hoist_function]
      exact .paired_after (hoisted_paired _ _) ih
    | _ => exact ih

section Hoisting

variable {first second : Stmt} {name name' : String}

theorem hoist_exchange {rest rest' : List Stmt} (declares : first.kind.function? = some name)
    (declares' : second.kind.function? = some name') (distinct : name ≠ name')
    (others : Gen.Paired False (hoist rest) (hoist rest')) :
    Gen.Paired False (hoist (first :: second :: rest)) (hoist (second :: first :: rest')) := by
  have declared {stmt : Stmt} {name : String} (declares : stmt.kind.function? = some name) :
      ∃ line binding, binding.name = name ∧ ∀ rest, hoist (stmt :: rest) = (do
        Gen.change fun context => context.hoisted line binding
        hoist rest) := by
    obtain ⟨line, kind⟩ := stmt
    cases kind with
    | function name params returns body =>
      obtain rfl := Option.some.inj declares
      exact ⟨_, _, rfl, hoist_function line name params returns body⟩
    | _ => contradiction
  obtain ⟨line, binding, rfl, run⟩ := declared declares
  obtain ⟨line', binding', rfl, run'⟩ := declared declares'
  have both : Gen.Paired False
      (do
        Gen.change fun context => (context.hoisted line binding).hoisted line' binding'
        hoist rest)
      (do
        Gen.change fun context => (context.hoisted line' binding').hoisted line binding
        hoist rest') := .paired_after (hoisted_exchange distinct) others
  rw [run, run', run', run]
  exact both

/-- Two functions with different names are declared in either order. -/
theorem hoist_twins {found : Bool} {block block' : List Stmt}
    (declares : first.kind.function? = some name) (declares' : second.kind.function? = some name')
    (distinct : name ≠ name') (exchanged : BlockExchanged first second found block block') :
    Gen.Paired False (hoist block) (hoist block') := by
  cases exchanged with
  | nil => exact .pure trivial
  | cons head tail =>
    have others := hoist_twins declares declares' distinct tail
    cases head with
    | function body =>
      rw [hoist_function, hoist_function, body.awaits_eq]
      exact .paired_after (hoisted_paired _ _) others
    | _ =>
      rw [hoist_cons_other rfl, hoist_cons_other rfl]
      exact others
  | exchange tail =>
    exact hoist_exchange declares declares' distinct
      (hoist_twins declares declares' distinct tail)

end Hoisting

/-! ### Functions -/

section Functions

variable {α β : Type} {related : Prop → α → β → Prop} {line : Nat}

theorem Gen.Keeps.matched {step : Gen α} (keeps : Gen.Keeps Context.SamePlace step) :
    Gen.Keeps Context.Matches step :=
  fun before => (keeps before).matched

/-- Reaching the statement of a function makes no difference. -/
theorem reachFunction_keeps_matched (name : String) :
    Gen.Keeps Context.Matches (reachFunction name) := by
  refine .change fun context => ?_
  split
  next name' params returns async constant found =>
    obtain rfl : name' = name := by simpa using List.find?_some found
    let declared : Binding := ⟨name', .function params returns async true, constant⟩
    have found : context.scopes.lookupCurrent? declared.name = some declared := found
    exact context.matched_declare_reached found
  · exact refl context

theorem reachFunction_paired (name : String) :
    Gen.Paired fixed (reachFunction name) (reachFunction name) := by
  have kept (context : Context) : (reachFunction name context).2.diagnostics = context.diagnostics ∧
      (reachFunction name context).2.helpers = context.helpers := by
    unfold reachFunction Gen.change
    dsimp only
    split <;> exact ⟨rfl, rfl⟩
  have keeps := reachFunction_keeps_matched name
  exact .change kept kept fun before before' matched =>
    (keeps before).symm.trans (matched.trans (keeps before'))

theorem parameterBindings_twins (params : List Param) :
    Gen.Twins fixed quiet (fun _ => Eq) (parameterBindings line params)
      (parameterBindings line params) := by
  induction params generalizing quiet with
  | nil => exact .pure rfl
  | cons param rest ih =>
    exact .after .expect fun _ _ => .bind ih fun _ _ _ _ same => .pure (congrArg _ same)

theorem functionBody_twins {params : List Param} {body : Gen α} {body' : Gen β}
    (twins : ∀ now : Prop, (now → quiet) → Gen.Twins fixed now related body body') :
    Gen.Twins fixed quiet related (functionBody params returns line body)
      (functionBody params returns line body') := by
  refine .bind (parameterBindings_twins params) fun _ bindings _ earlier same => ?_
  obtain rfl := same
  exact .inFunction (.inBlock fun now later => twins now (earlier ∘ later))

theorem checkReturnType_paired :
    Gen.Paired fixed (checkReturnType returns line) (checkReturnType returns line) :=
  .ite .report .expect

end Functions

/-! ### Other statements -/

section Others

variable {first second : Stmt} {found found' : Bool} {line : Nat} {kind : Value → Prop}

theorem checkVariableType_paired :
    Gen.Paired fixed (checkVariableType type line) (checkVariableType type line) := by
  refine .ite .fail ?_
  cases type.checkNames with
  | ok => exact .pure trivial
  | error cause => exact .fail

theorem generateDeclaration_twins {name : String} {constant : Bool}
    (twins : ∀ now : Prop, (now → quiet) →
      Gen.Twins fixed now (ValueTwins first second found) value value') :
    Gen.Twins fixed quiet (Gen.IfQuiet (StmtExchanged first second found))
      (generateDeclaration name type value constant line)
      (generateDeclaration name type value' constant line) := by
  refine .after checkVariableType_paired fun _ checked => ?_
  refine .bind .context fun _ context context' read matched => ?_
  rw [matched.isTaken name]
  refine .guarded .report fun now noted => ?_
  refine .bind (twins now (checked ∘ read ∘ noted)).attempted fun _ value? value?' _ same => ?_
  cases same with
  | none =>
    refine .bind (.known _) fun _ recorded _ _ equal => ?_
    obtain rfl : recorded = _ := equal
    exact .guarded (.declare _) fun _ _ => .stop
  | @some value value' same =>
    dsimp only
    rw [same.type]
    refine .after .expect fun _ earlier => .bind (.known _) fun _ recorded _ later equal => ?_
    obtain rfl : recorded = _ := equal
    refine .guarded (.declare _) fun _ last => .pure fun quiet => ?_
    have code := same.code (earlier (later (last quiet)))
    exact StmtExchanged.declare (code.truncate type) constant name

theorem StepsAlike.isEmpty_eq (alike : StepsAlike steps steps') :
    steps'.isEmpty = steps.isEmpty := by
  cases alike <;> rfl

theorem StepsAlike.elementAlong?_eq (alike : StepsAlike steps steps') (type : Ty) :
    type.elementAlong? steps' = type.elementAlong? steps := by
  induction alike generalizing type with
  | nil => rfl
  | cons head _ ih =>
    cases head with
    | property => rfl
    | index =>
      obtain ⟨name, _ | ⟨element, _ | _⟩⟩ | members := type
      · rfl
      · simp only [Ty.elementAlong?, ih]
      · rfl
      · rfl

theorem integerTarget_twins (alike : StepsAlike steps steps') :
    Gen.Twins fixed quiet (fun _ => Eq) (integerTarget base steps line)
      (integerTarget base steps' line) := by
  refine .bind .context fun _ context context' _ matched => ?_
  have declared := matched.lookup? base
  rw [matched.module? base, alike.isEmpty_eq]
  generalize context.scopes.lookup? base = binding?, context'.scopes.lookup? base = binding?'
    at declared
  cases declared with
  | none => exact .ite .fail (.pure rfl)
  | @some binding binding' same =>
    have agree := same.meaning
    have constant := same.constant
    obtain ⟨_, meaning, _⟩ := binding
    obtain ⟨_, meaning', _⟩ := binding'
    obtain rfl := constant
    cases meaning with
    | value type =>
      cases meaning' with
      | function => contradiction
      | value type' =>
        obtain rfl := Meaning.value.inj agree
        dsimp only
        rw [alike.elementAlong?_eq]
        exact .ite (.ite .fail (.pure rfl)) (.pure rfl)
    | function =>
      cases meaning' with
      | value type' => contradiction
      | function => exact .fail

theorem generateModification_twins {op : Operator} {target target' : Gen Value}
    (alike : StepsAlike steps steps')
    (targets : ∀ now : Prop, (now → quiet) →
      Gen.Twins fixed now (ValueTwins first second found) target target')
    (values : ∀ now : Prop, (now → quiet) →
      Gen.Twins fixed now (ValueTwins first second found') value value') :
    Gen.Twins fixed quiet (Gen.IfQuiet (StmtExchanged first second (found || found')))
      (generateModification base steps op target value line)
      (generateModification base steps' op target' value' line) := by
  refine .bind (integerTarget_twins alike) fun now integer _ earlier same => ?_
  obtain rfl := same
  refine .bind (targets now earlier).attempted fun now _ _ earlier' target => ?_
  refine .bind (values now (earlier ∘ earlier')).attempted fun _ _ _ later value => ?_
  cases target with
  | none => exact .stop
  | some target =>
    cases value with
    | none => exact .stop
    | some value =>
      dsimp only
      rw [target.type, value.type]
      refine .bind .ofExcept fun _ stored _ checked equal => ?_
      obtain rfl := equal
      refine .after .expect fun _ last => .pure fun quiet => ?_
      have quiet := checked (last quiet)
      exact .assignment (target.code (later quiet)) (value.code quiet) integer op

theorem generateCondition_twins {statement : String} {tokens : List Token} {other : Gen Value}
    (twins : Gen.Twins fixed quiet (ValueTwins first second found)
      (generateExpression line (.wanted none []) tokens) other) :
    Gen.Twins fixed quiet (Gen.IfQuiet (ExprExchanged first second found))
      (generateCondition statement (generateExpression line (.wanted none []) tokens) line)
      (generateCondition statement other line) := by
  refine .bind (twins.attempt (generateTokens_code line tokens))
    fun _ value? value?' _ ⟨same, delivered⟩ => ?_
  cases same with
  | none =>
    refine .pure fun quiet => ?_
    obtain ⟨_, ⟨⟩, _⟩ := delivered quiet
  | some same =>
    dsimp only
    rw [same.type]
    exact .guarded .report fun _ later => .pure fun quiet => same.code (later quiet)

theorem generateImport_paired {path : String} {toplevel : Bool} :
    Gen.Paired fixed (generateImport path toplevel line) (generateImport path toplevel line) := by
  refine .bind .context fun _ context context' _ matched => ?_
  show Gen.Paired fixed _ _
  rw [matched.imports, matched.load]
  refine .ite .report (.ite .report ?_)
  cases context.load path with
  | error cause => exact .report
  | ok module =>
    have found := matched.lookup? module.name
    dsimp only
    rw [matched.module? module.name]
    generalize context.scopes.lookup? module.name = binding?,
      context'.scopes.lookup? module.name = binding?' at found
    have adds : Gen.Paired fixed
        (Gen.change fun context => { context with imports := context.imports ++ [module] })
        (Gen.change fun context => { context with imports := context.imports ++ [module] }) :=
      .change (fun _ => ⟨rfl, rfl⟩) (fun _ => ⟨rfl, rfl⟩) fun _ _ matched =>
        ⟨matched.load, congrArg (· ++ [module]) matched.imports, matched.views, matched.returns⟩
    cases found with
    | none | some => exact .ite .report adds

theorem returnType_twins :
    Gen.Twins fixed quiet (fun _ => Eq) (returnType line) (returnType line) := by
  refine .bind .context fun _ context context' _ matched => ?_
  rw [matched.returns]
  cases context.returns with
  | nil => exact .fail
  | cons type _ => exact .pure rfl

theorem generateReturn_twins :
    Gen.Twins fixed quiet (Gen.IfQuiet (StmtExchanged first second false)) (generateReturn line)
      (generateReturn line) := by
  refine .bind returnType_twins fun _ type _ _ same => ?_
  obtain rfl := same
  exact .guarded .report fun _ _ => .pure fun _ _ => .same _

theorem generateReturnOf_twins (twins : ∀ now : Prop, (now → quiet) →
      Gen.Twins fixed now (ValueTwins first second found) value value') :
    Gen.Twins fixed quiet (Gen.IfQuiet (StmtExchanged first second found))
      (generateReturnOf value line) (generateReturnOf value' line) := by
  refine .bind returnType_twins fun now type _ earlier same => ?_
  obtain rfl := same
  refine .bind (twins now earlier) fun now value value' _ same => ?_
  have returns (last : Prop) (later : last → now) : Gen.Twins fixed last
      (Gen.IfQuiet (StmtExchanged first second found))
      (pure (.returns (some (type.truncate value.code))))
      (pure (.returns (some (type.truncate value'.code)))) :=
    .pure fun quiet => .returns ((same.code (later quiet)).truncate type)
  rw [same.type]
  exact .ite (.after .report returns) (.after .expect returns)

end Others

end TypedScript
