/-
**Generating expressions side by side.** The steps that make up the generation of an expression, each
from parts that go the same way: they go the same way themselves, have values of the same types, and
if nothing is reported, their code differs by the exchanges in their parts.
-/

import TypedScript.Proofs.Exchange.Scripts
import TypedScript.Proofs.Exchange.Texts
import TypedScript.Proofs.Exchange.Twins
import TypedScript.Proofs.Generation.Emission

namespace TypedScript

variable {fixed quiet now : Prop} {first second : Stmt} {found found' : Bool} {line : Nat}
  {value value' receiver receiver' : Value} {before before' : Operand} {base : String}
  {steps steps' : List Step} {walk walk' : Bool → Nat → Value → Gen Value} {params : List Ty}
  {variadic async awaited : Bool} {returns : Ty}

/-! ### Results -/

section Results

variable (first second : Stmt)

/-- Values of the same type. If nothing is reported, their code differs by exchanges. -/
structure ValueTwins (found : Bool) (quiet : Prop) (value value' : Value) : Prop where
  type : value'.type = value.type
  code : quiet → ExprExchanged first second found value.code value'.code

/-- Arguments one by one. -/
inductive ValuesTwins : Bool → Prop → List Value → List Value → Prop
  | nil {quiet : Prop} : ValuesTwins false quiet [] []
  | cons {found found' : Bool} {quiet : Prop} {value value' : Value} {rest rest' : List Value}
      (head : ValueTwins first second found quiet value value')
      (tail : ValuesTwins found' quiet rest rest') :
      ValuesTwins (found || found') quiet (value :: rest) (value' :: rest')

/-- Operands that differ in code alone. -/
inductive OperandTwins : Bool → Prop → Operand → Operand → Prop
  | wanted {quiet : Prop} (prefixes : List Operator) :
      OperandTwins false quiet (.wanted none prefixes) (.wanted none prefixes)
  | right {found : Bool} {quiet : Prop} {left left' : Value} (op : Operator)
      (prefixes : List Operator) (twins : ValueTwins first second found quiet left left') :
      OperandTwins found quiet (.wanted (some (left, op)) prefixes)
        (.wanted (some (left', op)) prefixes)
  | complete {found : Bool} {quiet : Prop} {value value' : Value}
      (twins : ValueTwins first second found quiet value value') :
      OperandTwins found quiet (.complete value) (.complete value')

end Results

/-- Targets that differ in code alone. -/
inductive CallTarget.SameTypes : CallTarget → CallTarget → Prop
  | checked (code code' : Target.Expr) (receiver receiver' : Option Target.Expr) (params : List Ty)
      (variadic : Bool) (returns : Ty) (async : Bool) :
      SameTypes (.checked code receiver params variadic returns async)
        (.checked code' receiver' params variadic returns async)
  | unchecked (code code' : Target.Expr) : SameTypes (.unchecked code) (.unchecked code')

/-- If nothing is reported, calls differ by the exchanges in what is called and in the arguments. -/
structure TargetTwins (first second : Stmt) (found : Bool) (quiet : Prop)
    (target target' : CallTarget) : Prop where
  types : target.SameTypes target'
  code : quiet → ∀ found' codes codes', CodesExchanged first second found' codes codes' →
    ExprExchanged first second (found || found') (target.code codes) (target'.code codes')

/-- A value is its own twin. -/
theorem ValueTwins.same (value : Value) : ValueTwins first second false quiet value value :=
  ⟨rfl, fun _ => .same _⟩

/-- After a report only types matter. -/
theorem ValueTwins.of_type (reported : ¬quiet) (type : value'.type = value.type) :
    ValueTwins first second found quiet value value' :=
  ⟨type, fun quiet => absurd quiet reported⟩

/-- Twins stay twins while nothing is reported. -/
theorem ValueTwins.later (twins : ValueTwins first second found quiet value value')
    (earlier : now → quiet) : ValueTwins first second found now value value' :=
  ⟨twins.type, fun quiet => twins.code (earlier quiet)⟩

theorem TargetTwins.later {target target' : CallTarget}
    (twins : TargetTwins first second found quiet target target') (earlier : now → quiet) :
    TargetTwins first second found now target target' :=
  ⟨twins.types, fun quiet => twins.code (earlier quiet)⟩

namespace ValuesTwins

variable {values values' : List Value}

/-- Arguments have the same types. -/
theorem types_eq (twins : ValuesTwins first second found quiet values values') :
    values'.map Value.type = values.map Value.type := by
  induction twins with
  | nil => rfl
  | cons head _ ih => rw [List.map_cons, List.map_cons, head.type, ih]

/-- The code of arguments differs by exchanges. -/
theorem codes (twins : ValuesTwins first second found quiet values values') (silent : quiet) :
    CodesExchanged first second found (values.map Value.code) (values'.map Value.code) := by
  induction twins with
  | nil => exact .nil
  | cons head _ ih => exact .cons (head.code silent) (ih silent)

theorem later (twins : ValuesTwins first second found quiet values values')
    (earlier : now → quiet) : ValuesTwins first second found now values values' := by
  induction twins with
  | nil => exact .nil
  | cons head _ ih => exact .cons (head.later earlier) (ih earlier)

end ValuesTwins

/-! ### Operators -/

/-- Operators in front of a value. -/
theorem applyPrefixes_twins (prefixes : List Operator)
    (twins : ValueTwins first second found quiet value value') :
    Gen.Twins fixed quiet (ValueTwins first second found) (applyPrefixes line prefixes value)
      (applyPrefixes line prefixes value') := by
  induction prefixes generalizing quiet value value' with
  | nil => exact .pure twins
  | cons op rest ih =>
    unfold applyPrefixes
    rw [twins.type]
    refine .bind .ofExcept fun _ type _ earlier equal => ?_
    obtain rfl := equal
    exact ih ⟨rfl, fun quiet => (twins.code (earlier quiet)).unary op⟩

/-- An operator between two values. -/
theorem applyLeft_twins {left left' : Value} {op : Operator}
    (front : ValueTwins first second found quiet left left')
    (twins : ValueTwins first second found' quiet value value') :
    Gen.Twins fixed quiet (ValueTwins first second (found || found'))
      (applyLeft line (some (left, op)) value) (applyLeft line (some (left', op)) value') := by
  unfold applyLeft
  dsimp only
  rw [front.type, twins.type]
  refine .bind .ofExcept fun _ _ _ earlier equal => .pure ⟨equal.symm, fun quiet => ?_⟩
  exact (front.code (earlier quiet)).binary (twins.code (earlier quiet)) op

/-- An operator goes on the same way. -/
theorem afterOperator_twins (op : Operator)
    (twins : OperandTwins first second found quiet before before') :
    Gen.Twins fixed quiet (OperandTwins first second found) (before.afterOperator line op)
      (before'.afterOperator line op) := by
  cases twins with
  | wanted prefixes => exact .ite (.pure (.wanted _)) .fail
  | right left prefixes twins => exact .ite (.pure (.right left _ twins)) .fail
  | complete twins => exact .ite (.pure (.right op _ twins)) .fail

/-- A value goes on the same way. -/
theorem afterValue_twins {step step' : Gen Value}
    (twins : OperandTwins first second found quiet before before')
    (operand : Gen.Twins fixed quiet (ValueTwins first second found') step step') :
    Gen.Twins fixed quiet (OperandTwins first second (found || found'))
      (before.afterValue line step) (before'.afterValue line step') := by
  cases twins with
  | complete => exact .fail
  | wanted prefixes =>
    exact .bind operand fun _ _ _ _ value => .bind (applyPrefixes_twins prefixes value)
      fun _ _ _ _ value => .pure (.complete value)
  | right op prefixes left =>
    refine .bind operand fun _ _ _ earlier value => ?_
    refine .bind (applyPrefixes_twins prefixes value) fun _ _ _ earlier' value => ?_
    exact .bind (applyLeft_twins (left.later (earlier ∘ earlier')) value) fun _ _ _ _ whole =>
      .pure (.complete whole)

/-- Both expressions are complete, or none is. -/
theorem atEnd_twins (twins : OperandTwins first second found quiet before before') :
    Gen.Twins fixed quiet (ValueTwins first second found) (before.atEnd line)
      (before'.atEnd line) := by
  cases twins with
  | complete twins => exact .pure twins
  | _ => exact .fail

/-! ### Accesses -/

/-- Steps of one kind, to the same property. -/
inductive Step.Alike : Step → Step → Prop
  | property (name : String) : Alike (.property name) (.property name)
  | index (tokens tokens' : List Token) : Alike (.index tokens) (.index tokens')

/-- Accesses that take steps of the same kinds. -/
abbrev StepsAlike : List Step → List Step → Prop :=
  List.Forall₂ Step.Alike

/-- The start of an access takes no step, or a first property. -/
def StartTakes (steps : List Step) (taken : Nat) : Prop :=
  taken = 0 ∨ taken = 1 ∧ ∃ name rest, steps = .property name :: rest

theorem StartTakes.of_dropLast {taken : Nat} (startTakes : StartTakes steps.dropLast taken) :
    StartTakes steps taken := by
  rcases startTakes with rfl | ⟨rfl, name, rest, starts⟩
  · exact .inl rfl
  · rcases steps with _ | ⟨step, _ | _⟩
    · contradiction
    · contradiction
    · obtain ⟨rfl, _⟩ := List.cons.inj starts
      exact .inr ⟨rfl, _, _, rfl⟩

/-- How far an access is walked. -/
structure WalksUpTo (beforeLast : Bool) (taken : Nat) (steps : List Step) : Prop where
  startTakes : StartTakes steps taken
  last : beforeLast = true → ∃ name, steps.getLast? = some (.property name)

namespace WalksUpTo

variable {beforeLast : Bool} {taken : Nat} {step : Step} {rest : List Step}

theorem all (startTakes : StartTakes steps taken) : WalksUpTo false taken steps :=
  ⟨startTakes, fun no => absurd no Bool.false_ne_true⟩

/-- The last step, if it is left out, is a property. -/
theorem ends (walks : WalksUpTo beforeLast taken (step :: rest))
    (ends : (beforeLast && rest.isEmpty) = true) : ∃ name, step = .property name ∧ rest = [] := by
  obtain ⟨before, empty⟩ := Bool.and_eq_true_iff.mp ends
  obtain ⟨name, last⟩ := walks.last before
  obtain rfl := List.isEmpty_iff.mp empty
  exact ⟨name, Option.some.inj last, rfl⟩

/-- A first step that was taken is a property. -/
theorem starts (walks : WalksUpTo beforeLast taken (step :: rest)) :
    taken = 0 ∨ taken = 1 ∧ ∃ name, step = .property name := by
  rcases walks.startTakes with none | ⟨one, name, _, starts⟩
  · exact .inl none
  · exact .inr ⟨one, name, (List.cons.inj starts).1⟩

/-- Behind the first step. -/
theorem tail (walks : WalksUpTo beforeLast taken (step :: rest))
    (more : (beforeLast && rest.isEmpty) = false) : WalksUpTo beforeLast 0 rest := by
  refine ⟨.inl rfl, fun before => ?_⟩
  obtain ⟨name, last⟩ := walks.last before
  obtain rfl := before
  cases rest with
  | nil => contradiction
  | cons next rest => exact ⟨name, last⟩

end WalksUpTo

/-- Accesses start the same way. -/
theorem resolveBase_twins (alike : StepsAlike steps steps') :
    Gen.Twins fixed quiet (fun _ start start' => start' = start ∧ StartTakes steps start.2)
      (resolveBase base steps line) (resolveBase base steps' line) := by
  refine .bind .context fun _ context context' _ matched => ?_
  have declared := matched.lookup? base
  rw [matched.module? base]
  generalize context.scopes.lookup? base = binding?, context'.scopes.lookup? base = binding?'
    at declared
  cases declared with
  | some binding =>
    dsimp only
    rw [binding.type]
    exact .pure ⟨rfl, .inl rfl⟩
  | none =>
    cases context.module? base with
    | none => exact .fail
    | some module =>
      cases alike with
      | nil => exact .pure ⟨rfl, .inl rfl⟩
      | cons head tail =>
        cases head with
        | index => exact .pure ⟨rfl, .inl rfl⟩
        | property member =>
          dsimp only
          cases module.memberType? member with
          | none => exact .fail
          | some type => exact .pure ⟨rfl, .inr ⟨rfl, _, _, rfl⟩⟩

/-- **Accesses go the same way** if their steps do. -/
theorem resolveWith_twins {walk walk' : Nat → Value → Gen Value} (alike : StepsAlike steps steps')
    (walks : ∀ (now : Prop) taken start, (now → quiet) → StartTakes steps taken →
      Gen.Twins fixed now (ValueTwins first second found) (walk taken start) (walk' taken start)) :
    Gen.Twins fixed quiet (ValueTwins first second found) (resolveWith base steps line walk)
      (resolveWith base steps' line walk') := by
  refine .bind (resolveBase_twins alike) fun _ start _ earlier same => ?_
  obtain ⟨rfl, startTakes⟩ := same
  exact walks _ _ _ earlier startTakes

/-- Reading a property. -/
theorem accessMember_twins (name : String)
    (twins : ValueTwins first second found quiet receiver receiver') :
    Gen.Twins fixed quiet (ValueTwins first second found) (accessMember receiver name line)
      (accessMember receiver' name line) := by
  unfold accessMember
  rw [twins.type]
  refine .bind .ofExcept fun _ member _ earlier equal => ?_
  obtain rfl := equal
  exact .pure ⟨rfl, fun quiet => (twins.code (earlier quiet)).member name⟩

/-- Reading an element. -/
theorem accessIndex_twins {index index' : Gen Value}
    (twins : ValueTwins first second found quiet receiver receiver')
    (indices : ∀ now : Prop, (now → quiet) →
      Gen.Twins fixed now (ValueTwins first second found') index index') :
    Gen.Twins fixed quiet (ValueTwins first second (found || found'))
      (accessIndex receiver index line) (accessIndex receiver' index' line) := by
  unfold accessIndex
  rw [twins.type]
  refine .bind .ofExcept fun now pair _ earlier equal => ?_
  obtain rfl := equal
  refine .bind (indices now earlier) fun _ value value' earlier' inner => ?_
  rw [inner.type]
  refine .after .expect fun _ last => .pure ⟨rfl, fun quiet => ?_⟩
  exact (twins.code (earlier (earlier' (last quiet)))).index (inner.code (last quiet))

/-! ### Calls -/

/-- Calling a value. -/
theorem callValue_twins (name : String) (twins : ValueTwins first second found quiet value value') :
    Gen.Twins fixed quiet (TargetTwins first second found) (callValue value name line)
      (callValue value' name line) := by
  unfold callValue
  rw [twins.type]
  exact .ite (.pure ⟨.unchecked _ _, fun quiet _ _ _ arguments =>
    (twins.code quiet).call arguments⟩) .fail

theorem TargetTwins.checked {code code' : Target.Expr}
    (exchanged : quiet → ExprExchanged first second found code code') :
    TargetTwins first second found quiet (.checked code none params variadic returns async)
      (.checked code' none params variadic returns async) :=
  ⟨.checked .., fun quiet _ _ _ arguments => (exchanged quiet).call arguments⟩

/-- Calling a name. -/
theorem callName_twins (name : String) :
    Gen.Twins fixed quiet (TargetTwins first second false) (callName name line)
      (callName name line) := by
  refine .bind .context fun _ context context' _ matched => ?_
  have declared := matched.lookup? name
  rw [matched.module? name]
  generalize context.scopes.lookup? name = binding?, context'.scopes.lookup? name = binding?'
    at declared
  cases declared with
  | none => exact .ite .fail .fail
  | @some binding binding' same =>
    have agree := same.meaning
    obtain ⟨_, meaning, _⟩ := binding
    obtain ⟨_, meaning', _⟩ := binding'
    cases meaning with
    | value type =>
      cases meaning' with
      | value type' =>
        obtain rfl := Meaning.value.inj agree
        exact callValue_twins name (.same _)
      | function => contradiction
    | function params returns async hoisted =>
      cases meaning' with
      | value type' => contradiction
      | function =>
        obtain ⟨rfl, rfl, rfl, _⟩ := Meaning.function.inj agree
        exact .pure (.checked fun _ => .same _)

/-- Calling a function of a module. -/
theorem callModule_twins (module : Module) (base member : String) :
    Gen.Twins fixed quiet (TargetTwins first second false) (callModule module base member line)
      (callModule module base member line) := by
  unfold callModule
  cases module.function? member with
  | some function => exact .pure (.checked fun _ => .same _)
  | none =>
    cases module.property? member with
    | none => exact .fail
    | some property => exact callValue_twins _ (.same _)

/-- Calling a property. -/
theorem callMember_twins (name : String)
    (twins : ValueTwins first second found quiet receiver receiver') :
    Gen.Twins fixed quiet (TargetTwins first second found) (callMember receiver name line)
      (callMember receiver' name line) := by
  unfold callMember
  rw [twins.type]
  refine .bind .ofExcept fun _ member _ earlier equal => ?_
  obtain rfl := equal
  have twins := twins.later earlier
  refine .ite (callValue_twins name ⟨rfl, fun quiet => (twins.code quiet).member name⟩) ?_
  cases member.emission with
  | member => exact .pure (.checked fun quiet => (twins.code quiet).member name)
  | helper helper =>
    exact .after (.use helper) fun _ earlier => .pure ⟨.checked .., fun quiet _ _ _ arguments =>
      (ExprExchanged.same _).call (.cons (twins.code (earlier quiet)) arguments)⟩

/-- The last steps are of one kind. -/
theorem StepsAlike.getLast (alike : StepsAlike steps steps') :
    Option.Rel Step.Alike steps.getLast? steps'.getLast? := by
  induction alike with
  | nil => exact .none
  | @cons _ _ rest rest' head _ ih =>
    rw [List.getLast?_cons, List.getLast?_cons]
    generalize rest.getLast? = last?, rest'.getLast? = last?' at ih
    cases ih with
    | none => exact .some head
    | some last => exact .some last

theorem StepsAlike.dropLast (alike : StepsAlike steps steps') :
    StepsAlike steps.dropLast steps'.dropLast := by
  rw [List.dropLast_eq_take, List.dropLast_eq_take, alike.length_eq]
  exact List.forall₂_take _ alike

section Targets

variable (alike : StepsAlike steps steps')
  (indexed : found = true → ∃ tokens, Step.index tokens ∈ steps)
  (walks : ∀ (now : Prop) beforeLast taken start, (now → quiet) →
    WalksUpTo beforeLast taken steps → Gen.Twins fixed now (ValueTwins first second found)
      (walk beforeLast taken start) (walk' beforeLast taken start))

include alike indexed walks

/-- Calling what steps lead to. -/
theorem callSteps_twins : Gen.Twins fixed quiet (TargetTwins first second found)
    (callSteps base steps line walk) (callSteps base steps' line walk') := by
  unfold callSteps
  have same := alike.getLast
  generalize ends : steps.getLast? = last?, steps'.getLast? = last?' at same
  cases same with
  | none =>
    obtain rfl := List.getLast?_eq_none_iff.mp ends
    obtain rfl : found = false := by simpa using indexed
    exact callName_twins base
  | some same =>
    cases same with
    | index =>
      exact .bind (resolveWith_twins alike fun now taken start earlier startTakes =>
        walks now false taken start earlier (.all startTakes))
        fun _ _ _ _ value => callValue_twins base value
    | property name =>
      exact .bind (resolveWith_twins alike.dropLast fun now taken start earlier startTakes =>
        walks now true taken start earlier ⟨startTakes.of_dropLast, fun _ => ⟨name, ends⟩⟩)
        fun _ _ _ _ value => callMember_twins name value

/-- **What is called is the same**, but for exchanges. -/
theorem callTarget_twins : Gen.Twins fixed quiet (TargetTwins first second found)
    (callTarget base steps line walk) (callTarget base steps' line walk') := by
  refine .bind .context fun now context context' earlier matched => ?_
  have others : Gen.Twins fixed now (TargetTwins first second found)
      (callSteps base steps line walk) (callSteps base steps' line walk') :=
    callSteps_twins alike indexed fun now' beforeLast taken start later =>
      walks now' beforeLast taken start (earlier ∘ later)
  have declared := matched.lookup? base
  rw [matched.module? base]
  generalize context.scopes.lookup? base = binding?, context'.scopes.lookup? base = binding?'
    at declared
  cases declared with
  | some => exact others
  | none =>
    cases context.module? base with
    | none => exact others
    | some module =>
      cases alike with
      | nil => exact others
      | cons head tail =>
        cases head with
        | index => exact others
        | property member =>
          cases tail with
          | cons => exact others
          | nil =>
            obtain rfl : found = false := by simpa using indexed
            exact callModule_twins module base member

end Targets

/-- One argument, and the others. -/
theorem generateArguments_cons_twins {tokens tokens' : List Token} {rest rest' : List (List Token)}
    (value : Gen.Twins fixed quiet (ValueTwins first second found)
      (generateExpression line (.wanted none []) tokens)
      (generateExpression line (.wanted none []) tokens'))
    (values : ∀ now : Prop, (now → quiet) → Gen.Twins fixed now
      (fun now => Option.Rel (ValuesTwins first second found' now)) (generateArguments line rest)
      (generateArguments line rest')) :
    Gen.Twins fixed quiet (fun now => Option.Rel (ValuesTwins first second (found || found') now))
      (generateArguments line (tokens :: rest)) (generateArguments line (tokens' :: rest')) := by
  rw [generateArguments, generateArguments]
  refine .bind value.attempted fun now _ _ earlier value => ?_
  refine .bind (values now earlier) fun _ _ _ later values => ?_
  cases value with
  | none => exact .pure .none
  | some value =>
    cases values with
    | none => exact .pure .none
    | some values => exact .pure (.some (.cons (value.later later) values))

/-- A call of what was found. -/
theorem call_twins {target target' : CallTarget} {arguments arguments' : List Value}
    (twins : TargetTwins first second found quiet target target')
    (given : ValuesTwins first second found' quiet arguments arguments') :
    Gen.Twins fixed quiet (ValueTwins first second (found || found'))
      (target.call arguments awaited line) (target'.call arguments' awaited line) := by
  have codes (silent : quiet) := twins.code silent _ _ _ (given.codes silent)
  cases twins.types with
  | unchecked code code' => exact .pure ⟨rfl, codes⟩
  | checked code code' receiver receiver' params variadic returns async =>
    unfold CallTarget.call
    rw [given.types_eq]
    exact .after .reportAll fun _ earlier => .pure ⟨rfl, fun quiet => codes (earlier quiet)⟩

/-- **Calls go the same way** if their arguments and targets do. -/
theorem generateCall_twins {arguments arguments' : Gen (Option (List Value))}
    {target target' : Gen CallTarget} (given : Gen.Twins fixed quiet
      (fun now => Option.Rel (ValuesTwins first second found' now)) arguments arguments')
    (twins : ∀ now : Prop, (now → quiet) →
      Gen.Twins fixed now (TargetTwins first second found) target target') :
    Gen.Twins fixed quiet (ValueTwins first second (found || found'))
      (generateCall awaited line arguments target)
      (generateCall awaited line arguments' target') := by
  refine .bind given fun now _ _ earlier values => ?_
  refine .bind (twins now earlier) fun _ _ _ later target => ?_
  cases values with
  | none => exact .stop
  | some values => exact call_twins target (values.later later)

end TypedScript
