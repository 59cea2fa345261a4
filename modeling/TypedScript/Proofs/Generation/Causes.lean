/-
**Causes without a place in expressions.** Of well-formed expressions, generation never reports that
an operand is missing, nor a token out of place other than an operator that is no assignment. Checks
on types and the loading of modules do not report such causes at all.
-/

import TypedScript.Options
import TypedScript.Types.Checks
import TypedScript.Types.Members
import TypedScript.Types.Operations

namespace TypedScript

/-- Causes that may be found in a script with well-formed expressions. -/
def Cause.IsRegular : Cause → Prop
  | .unexpectedEnd => False
  | .unexpectedToken token => ∃ op : Operator, op.isAssignment = false ∧ token = op.spelling
  | _ => True

theorem Operator.spelling_injective {op op' : Operator} (same : op.spelling = op'.spelling) :
    op = op' := by
  revert same
  cases op <;> cases op' <;> decide

theorem Cause.IsRegular.exclusions {cause : Cause} (regular : cause.IsRegular) :
    cause ≠ .unexpectedEnd ∧ cause ≠ .unexpectedToken "value" ∧
      ∀ op : Operator, op.isAssignment = true → cause ≠ .unexpectedToken op.spelling := by
  refine ⟨?_, ?_, ?_⟩
  · rintro rfl
    exact regular
  · rintro rfl
    obtain ⟨op, -, same⟩ := regular
    cases op <;> exact absurd same (by decide)
  · rintro op assigns rfl
    obtain ⟨op', plain, same⟩ := regular
    rw [← Operator.spelling_injective same, assigns] at plain
    contradiction

/-- An outcome that has no cause but a regular one. -/
def FailsRegularly {α : Type} (outcome : Except Cause α) : Prop :=
  ∀ cause, outcome = .error cause → cause.IsRegular

namespace FailsRegularly

variable {α β : Type} {outcome other : Except Cause α}

theorem ok {value : α} : FailsRegularly (.ok value) :=
  nofun

theorem error {cause : Cause} (regular : cause.IsRegular) :
    FailsRegularly (.error cause : Except Cause α) := by
  rintro _ ⟨⟩
  exact regular

theorem bind {next : α → Except Cause β} (first : FailsRegularly outcome)
    (second : ∀ value, FailsRegularly (next value)) : FailsRegularly (outcome >>= next) := by
  cases outcome with
  | error cause => exact error (first cause rfl)
  | ok value => exact second value

theorem ite {condition : Prop} [Decidable condition] (yes : FailsRegularly outcome)
    (no : FailsRegularly other) : FailsRegularly (if condition then outcome else other) := by
  split
  · exact yes
  · exact no

end FailsRegularly

/-! ### Checks on types -/

namespace Ty

theorem checkNames_regular (type : Ty) : FailsRegularly type.checkNames := by
  unfold checkNames
  split
  · exact .ok
  · exact .error trivial

theorem checkAssignment_regular (expected received : Ty) :
    FailsRegularly (checkAssignment expected received) :=
  .ite .ok (.error trivial)

theorem indexed_regular (receiver : Ty) : FailsRegularly receiver.indexed :=
  .ite .ok (.ite .ok (.ite .ok (.ite .ok (.error trivial))))

theorem applyUnary_regular (op : Operator) (operand : Ty) :
    FailsRegularly (operand.applyUnary op) := by
  refine .ite .ok ?_
  split
  · exact .ok
  · exact .error trivial

theorem applyBinary_regular (op : Operator) (left right : Ty) :
    FailsRegularly (applyBinary op left right) := by
  refine .ite (.error trivial) (.ite .ok (.ite .ok ?_))
  split
  · exact .ok
  · exact .error trivial

theorem member_regular (receiver : Ty) (name : String) (called : Bool) :
    FailsRegularly (receiver.member name called) := by
  refine .ite .ok ?_
  split
  · exact .ite (.error trivial) .ok
  · exact .ite .ok (.error trivial)

theorem argumentTypes_regular (params : List Ty) (variadic : Bool) (position : Nat)
    (arguments : List Ty) :
    ∀ cause ∈ argumentTypes params variadic position arguments, cause.IsRegular := by
  induction arguments generalizing position with
  | nil => exact nofun
  | cons argument rest ih =>
    rw [argumentTypes]
    split
    · exact ih _
    · split
      · exact ih _
      · exact List.forall_mem_cons.mpr ⟨trivial, ih _⟩

theorem checkArguments_regular (params : List Ty) (variadic : Bool) (arguments : List Ty) :
    ∀ cause ∈ checkArguments params variadic arguments, cause.IsRegular := by
  unfold checkArguments
  split
  · exact List.forall_mem_cons.mpr ⟨trivial, argumentTypes_regular params variadic 0 arguments⟩
  · exact argumentTypes_regular params variadic 0 arguments

end Ty

/-! ### Modules -/

namespace Module

theorem checkName_regular (path field name : String) : FailsRegularly (checkName path field name) :=
  .ite .ok (.error trivial)

theorem typeOf_regular (path : String) (value : Json) : FailsRegularly (typeOf path value) := by
  unfold typeOf
  split
  · split
    · exact .ok
    · exact .error trivial
  · exact .error trivial

theorem typesOf_regular (path : String) (values : List Json) :
    FailsRegularly (typesOf path values) := by
  induction values with
  | nil => exact .ok
  | cons value rest ih =>
    exact .bind (typeOf_regular path value) fun _ => .bind ih fun _ => .ok

theorem returnTypeOf_regular (path : String) (value : Json) :
    FailsRegularly (returnTypeOf path value) := by
  unfold returnTypeOf
  split
  · refine .bind (typesOf_regular path _) fun types => ?_
    split <;> exact .ok
  · exact typeOf_regular path _

theorem functionOf_regular (path : String) (entry : FunctionEntry) :
    FailsRegularly (functionOf path entry) := by
  refine .bind (checkName_regular _ _ _) fun _ => .bind (typesOf_regular path _) fun _ => ?_
  split
  · exact .bind (returnTypeOf_regular path _) fun _ => .ok
  · exact .ok

theorem functionsOf_regular (path : String) (entries : List FunctionEntry) :
    FailsRegularly (functionsOf path entries) := by
  induction entries with
  | nil => exact .ok
  | cons entry rest ih =>
    exact .bind (functionOf_regular path entry) fun _ => .bind ih fun _ => .ok

theorem propertyOf_regular (path : String) (entry : PropertyEntry) :
    FailsRegularly (propertyOf path entry) := by
  refine .bind (checkName_regular _ _ _) fun _ => ?_
  split
  · exact .bind (typeOf_regular path _) fun _ => .ok
  · exact .ok

theorem propertiesOf_regular (path : String) (entries : List PropertyEntry) :
    FailsRegularly (propertiesOf path entries) := by
  induction entries with
  | nil => exact .ok
  | cons entry rest ih =>
    exact .bind (propertyOf_regular path entry) fun _ => .bind ih fun _ => .ok

theorem checkCustomReturn_regular (path : String) (code? : Option String) :
    FailsRegularly (checkCustomReturn path code?) := by
  cases code? with
  | none => exact .ok
  | some code => exact .ite (.error trivial) .ok

theorem parse_regular (path : String) (text : List Char) : FailsRegularly (parse path text) := by
  unfold parse
  split
  · exact .error trivial
  · split
    · exact .error trivial
    · exact .bind (checkName_regular _ _ _) fun _ => .bind (checkCustomReturn_regular _ _) fun _ =>
        .bind (functionsOf_regular path _) fun _ => .bind (propertiesOf_regular path _) fun _ => .ok

end Module

/-- **Modules are refused for regular causes only**, whatever their files hold. -/
theorem Options.load_regular (options : Options) (read : String → Except FileFault String)
    (path : String) : FailsRegularly (options.load read path) := by
  unfold Options.load
  split
  · exact .error trivial
  · exact Module.parse_regular path _

end TypedScript
