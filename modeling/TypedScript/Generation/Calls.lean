/-
**Calls.** What is called decides which arguments are taken and what comes back. Of a value of type
`func` or `any` nothing is known: it takes all arguments.
-/

import TypedScript.Generation.Values

namespace TypedScript

/-- What a call leads to. -/
inductive CallTarget where
  /-- A callee with known parameters; a helper also takes the receiver. -/
  | checked (code : Target.Expr) (receiver : Option Target.Expr) (params : List Ty)
      (variadic : Bool) (returns : Ty) (async : Bool)
  /-- A value that may be called with anything. -/
  | unchecked (code : Target.Expr)

/-- A value as the target of a call. -/
def callValue (value : Value) (name : String) (line : Nat) : Gen CallTarget :=
  if value.type.category = "func" || value.type.category = "any" then
    pure (.unchecked value.code)
  else Gen.fail (.notCallable name) line

/-- The target of a call of a plain name. -/
def callName (name : String) (line : Nat) : Gen CallTarget := do
  let context ← Gen.context
  match context.scopes.lookup? name with
  | none =>
    if (context.module? name).isSome then Gen.fail (.notCallable name) line
    else Gen.fail (.functionNotDeclared name) line
  | some binding =>
    match binding.meaning with
    | .function params returns async _ =>
      return .checked (.name name) none (params.map Param.type) false returns async
    | .value type => callValue ⟨type, .name name⟩ name line

/-- The target for a member of a module: a function comes before a property of the same name. -/
def callModule (module : Module) (base member : String) (line : Nat) : Gen CallTarget :=
  let code := Target.Expr.member (.name base) member
  match module.function? member with
  | some function =>
    pure (.checked code none function.params function.variadic function.returns function.async)
  | none =>
    match module.property? member with
    | some property => callValue ⟨property.type, code⟩ (base ++ "." ++ member) line
    | none => Gen.fail (.unknownModuleMember base member) line

/-- The target of a call of a member. -/
def callMember (receiver : Value) (name : String) (line : Nat) : Gen CallTarget := do
  let member ← Gen.ofExcept (receiver.type.member name true) line
  let code := Target.Expr.member receiver.code name
  if member.loose then callValue ⟨member.type, code⟩ name line
  else
    match member.emission with
    | .member => return .checked code none member.params member.variadic member.type false
    | .helper helper =>
      Gen.change fun context => context.use helper
      return .checked (.name helper.name) (some receiver.code) member.params member.variadic
        member.type false

/-- The target that steps lead to from something that is no member of a module. The steps are taken
by `walk`, the last one only if the flag is off. -/
def callSteps (base : String) (steps : List Step) (line : Nat)
    (walk : Bool → Nat → Value → Gen Value) : Gen CallTarget :=
  match steps.getLast? with
  | none => callName base line
  | some (.index _) => do callValue (← resolveWith base steps line (walk false)) base line
  | some (.property name) => do
    callMember (← resolveWith base steps.dropLast line (walk true)) name line

/-- The target that a chain of steps leads to. -/
def callTarget (base : String) (steps : List Step) (line : Nat)
    (walk : Bool → Nat → Value → Gen Value) : Gen CallTarget := do
  let context ← Gen.context
  match context.scopes.lookup? base, context.module? base, steps with
  | none, some module, [.property member] => callModule module base member line
  | _, _, _ => callSteps base steps line walk

/-- The call of a target. A call of an asynchronous function that is not awaited gives a promise,
of type `any`. -/
def CallTarget.call (arguments : List Value) (awaited : Bool) (line : Nat) : CallTarget → Gen Value
  | .unchecked code => pure ⟨.any, .call code (arguments.map Value.code)⟩
  | .checked code receiver params variadic returns async => do
    Gen.reportAll line (Ty.checkArguments params variadic (arguments.map Value.type))
    let type := if async && !awaited then .any else returns
    return ⟨type, .call code (receiver.toList ++ arguments.map Value.code)⟩

/-- A call with the arguments that a step generates, if it generates all of them. -/
def generateCall (awaited : Bool) (line : Nat) (arguments : Gen (Option (List Value)))
    (target : Gen CallTarget) : Gen Value := do
  let arguments? ← arguments
  let target ← target
  match arguments? with
  | none => Gen.stop
  | some arguments => target.call arguments awaited line

end TypedScript
