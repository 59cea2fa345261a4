/-
**Contexts of generation.** Generating code changes a context: diagnostics are added, names are
declared, imports and helpers are recorded. A step of generation that fails has no result, and the
context goes on; so one run reports as much as possible.
-/

import TypedScript.Imports.Module
import TypedScript.Scopes
import TypedScript.Target.Writing
import TypedScript.Types.Members

namespace TypedScript

/-- What is known at a place of a script. -/
structure Context where
  /-- The module that an import path leads to. -/
  load : String → Except Cause Module
  imports : List Module
  diagnostics : List Diagnostic
  scopes : Scopes
  /-- The types that the enclosing functions return, the innermost first. -/
  returns : List Ty
  /-- The helpers in use. -/
  helpers : List Helper
  /-- How far the lines of the innermost block are indented. -/
  indent : Nat

namespace Context

/-- The context in front of a script. -/
def start (load : String → Except Cause Module) : Context :=
  ⟨load, [], [], .start, [], [], 1⟩

variable (context : Context)

/-- The imported module of a name. -/
def module? (name : String) : Option Module :=
  context.imports.find? fun module => module.name == name

/-- Adds a diagnostic. -/
def report (cause : Cause) (line : Nat) : Context :=
  { context with diagnostics := context.diagnostics ++ [⟨cause, line⟩] }

/-- Declares a name in the innermost block. -/
def declare (binding : Binding) : Context :=
  { context with scopes := context.scopes.put binding }

/-- Enters a new block, whose lines are indented further. -/
def enterBlock : Context :=
  { context with scopes := context.scopes.push, indent := context.indent + 1 }

/-- Leaves the innermost block, and takes its indentation back. -/
def leaveBlock : Context :=
  { context with scopes := context.scopes.pop, indent := context.indent - 1 }

/-- Inside of a function with a return type. -/
def enterFunction (returns : Ty) : Context :=
  { context with returns := returns :: context.returns }

/-- Behind a function. -/
def leaveFunction : Context :=
  { context with returns := context.returns.tail }

/-- Takes a helper into use. -/
def use (helper : Helper) : Context :=
  if context.helpers.contains helper then context
  else { context with helpers := helper :: context.helpers }

/-- Whether a name is taken in the innermost block. Names of modules are taken everywhere. -/
def isTaken (name : String) : Bool :=
  (context.scopes.lookupCurrent? name).isSome || (context.module? name).isSome

end Context

/-- A step of generation. -/
def Gen (α : Type) : Type :=
  Context → Option α × Context

namespace Gen

variable {α β : Type}

/-- One step after another; a step without a result ends both. -/
def andThen (step : Gen α) (next : α → Gen β) : Gen β := fun context =>
  match step context with
  | (some value, context) => next value context
  | (none, context) => (none, context)

instance : Monad Gen where
  pure value := fun context => (some value, context)
  bind := andThen

/-- The context of the place. -/
def context : Gen Context := fun context =>
  (some context, context)

/-- Changes the context. -/
def change (step : Context → Context) : Gen Unit := fun context =>
  (some (), step context)

/-- No result. -/
def stop : Gen α := fun context =>
  (none, context)

/-- Adds a diagnostic and goes on. -/
def report (cause : Cause) (line : Nat) : Gen Unit :=
  change fun context => context.report cause line

/-- Adds a diagnostic and has no result. -/
def fail (cause : Cause) (line : Nat) : Gen α := fun context =>
  (none, context.report cause line)

/-- A step that goes on without a result if it has none. -/
def attempt (step : Gen α) : Gen (Option α) := fun context =>
  match step context with
  | (value?, context) => (some value?, context)

/-- A result, or its cause as the end of the step. -/
def ofExcept (outcome : Except Cause α) (line : Nat) : Gen α :=
  match outcome with
  | .ok value => pure value
  | .error cause => fail cause line

/-- Reports the cause of a failed check and goes on. -/
def expect (check : Except Cause Unit) (line : Nat) : Gen Unit :=
  match check with
  | .ok () => pure ()
  | .error cause => report cause line

/-- Adds diagnostics on one line. -/
def reportAll (line : Nat) : List Cause → Gen Unit
  | [] => pure ()
  | cause :: rest => do
    report cause line
    reportAll line rest

/-- Declares parameters in the innermost block. A name that is there already is reported, and its
last declaration counts. -/
def declareAll (line : Nat) : List Binding → Gen Unit
  | [] => pure ()
  | binding :: rest => do
    if ((← context).scopes.lookupCurrent? binding.name).isSome then
      report (.alreadyDeclared binding.name) line
    change fun context => context.declare binding
    declareAll line rest

/-- A step inside a new block in which the given names are declared. -/
def inBlock (bindings : List Binding) (line : Nat) (step : Gen α) : Gen α := fun context =>
  match (declareAll line bindings).andThen (fun _ => step) context.enterBlock with
  | (value?, context) => (value?, context.leaveBlock)

/-- A step inside of a function. -/
def inFunction (returns : Ty) (step : Gen α) : Gen α := fun context =>
  match step (context.enterFunction returns) with
  | (value?, context) => (value?, context.leaveFunction)

end Gen

end TypedScript
