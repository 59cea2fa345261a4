/-
**Modifications.** What is stored as an `int` or `uint` is truncated. Whether it is depends on the
type that is written for what is modified: it is found by following the indexes of the target through
the types of elements, as long as every step is an index.
-/

import TypedScript.Proofs.Generation.Emission

namespace TypedScript

/-! ### Runs -/

/-- The integer type that a modification stores. -/
def Context.integerAt? (context : Context) (base : String) (steps : List Step) : Option Ty :=
  match context.scopes.lookup? base with
  | some ⟨_, .value type, _⟩ =>
    (type.elementAlong? steps).filter fun type => type.isInt || type.isUint
  | _ => none

section Runs

variable {base : String} {steps : List Step} {op : Operator} {line : Nat} {before after : Context}

theorem integerTarget_run {integer : Option Ty}
    (run : integerTarget base steps line before = (some integer, after)) :
    integer = before.integerAt? base steps ∧ after = before := by
  obtain ⟨context, place, here, chosen⟩ := Gen.bind_eq_some run
  clear run
  cases here
  unfold Context.integerAt?
  cases found : before.scopes.lookup? base with
  | none =>
    simp only [found] at chosen
    split at chosen
    · cases chosen
    · cases chosen
      exact ⟨rfl, rfl⟩
  | some binding =>
    obtain ⟨name, meaning, constant⟩ := binding
    simp only [found] at chosen
    cases meaning with
    | function params returns async hoisted => cases chosen
    | value type =>
      simp only at chosen
      split at chosen
      · rename_i empty
        obtain rfl := List.isEmpty_iff.mp empty
        split at chosen
        · cases chosen
        · cases chosen
          exact ⟨rfl, rfl⟩
      · cases chosen
        exact ⟨rfl, rfl⟩

theorem generateModification_run {target value : Gen Value} {code : Target.Stmt}
    (run : generateModification base steps op target value line before = (some code, after)) :
    ∃ targetValue between valueStored behind,
      target before = (some targetValue, between) ∧ value between = (some valueStored, behind) ∧
        behind.diagnostics <+: after.diagnostics ∧
        code = assignmentCode (before.integerAt? base steps) op targetValue.code
          valueStored.code := by
  obtain ⟨integer, place, found, run⟩ := Gen.bind_eq_some run
  obtain ⟨rfl, rfl⟩ := integerTarget_run found
  obtain ⟨target?, between, targetRun, run⟩ := Gen.bind_eq_some run
  obtain ⟨value?, behind, valueRun, run⟩ := Gen.bind_eq_some run
  have targetRun := Gen.attempt_eq_some targetRun
  have valueRun := Gen.attempt_eq_some valueRun
  cases target? with
  | none => cases run
  | some targetValue =>
    cases value? with
    | none => cases run
    | some valueStored =>
      obtain ⟨stored, checked, typed, run⟩ := Gen.bind_eq_some run
      obtain ⟨_, last, fits, run⟩ := Gen.bind_eq_some run
      cases run
      have first : Context.SamePlace behind checked :=
        (Gen.Keeps.ofExcept (assignedType_regular _ _ _)).of_run typed
      have second : Context.SamePlace checked _ :=
        (Gen.Keeps.expect (Ty.checkAssignment_regular _ _)).of_run fits
      exact ⟨targetValue, between, valueStored, behind, targetRun, valueRun,
        first.diagnostics.trans second.diagnostics, rfl⟩

end Runs

/-! ### What steps lead to -/

/-- The type that is written for what steps lead to, be they indexes or names of members. -/
inductive Ty.Leads : Ty → List Step → Ty → Prop
  | here (type : Ty) : Leads type [] type
  | element {element reached : Ty} {rest : List Step} (index : List Token)
      (further : Leads element rest reached) :
      Leads (.arrayOf element) (.index index :: rest) reached
  | key {element reached : Ty} {rest : List Step} (index : List Token)
      (further : Leads element rest reached) :
      Leads (.objectOf element) (.index index :: rest) reached
  | member {element reached : Ty} {rest : List Step} (name : String)
      (further : Leads element rest reached) :
      Leads (.objectOf element) (.property name :: rest) reached

def Step.isIndex : Step → Bool
  | .index _ => true
  | .property _ => false

theorem Ty.Leads.elementAlong? {type reached : Ty} {steps : List Step}
    (leads : type.Leads steps reached) :
    type.elementAlong? steps = if steps.all Step.isIndex then some reached else none := by
  induction leads with
  | here type => rfl
  | element index _ ih => simpa [Ty.arrayOf, Ty.elementAlong?, Step.isIndex] using ih
  | key index _ ih => simpa [Ty.objectOf, Ty.elementAlong?, Step.isIndex] using ih
  | member name _ _ => rfl

/-- What a modification stores. -/
def storedCode (op : Operator) (target value : Target.Expr) : Target.Expr :=
  match op.compoundBase? with
  | some base => .binary base target (.group value)
  | none => value

theorem assignmentCode_integer (type : Ty) (op : Operator) (target value : Target.Expr) :
    assignmentCode (some type) op target value =
      .assign target .assign (type.truncate (storedCode op target value)) := by
  unfold assignmentCode storedCode
  cases op.compoundBase? <;> rfl

/-- **An integer that steps lead to is truncated exactly if all of them are indexes.** With the name
of a member among the steps, the value is stored as it is. -/
theorem integers_truncated {context after : Context} {binding : Binding} {type reached : Ty}
    {base : String} {steps : List Step} {op : Operator} {value : List Token} {toplevel : Bool}
    {line : Nat} {code : Target.Stmt} (declared : context.scopes.lookup? base = some binding)
    (isVariable : binding.meaning = .value type) (leads : type.Leads steps reached)
    (integer : (reached.isInt || reached.isUint) = true)
    (run : generateKind toplevel line (.modify base steps op value) context = (some code, after)) :
    ∃ target between stored behind,
      resolveWith base steps line (fun taken start => generateSteps line false taken start steps)
        context = (some target, between) ∧
      generateTokens value line between = (some stored, behind) ∧
      code = if steps.all Step.isIndex then
          .assign target.code .assign (reached.truncate (storedCode op target.code stored.code))
        else .assign target.code op stored.code := by
  rw [generateKind] at run
  obtain ⟨target, between, stored, behind, targetRun, valueRun, -, rfl⟩ :=
    generateModification_run run
  refine ⟨target, between, stored, behind, targetRun, valueRun, ?_⟩
  obtain ⟨name, meaning, constant⟩ := binding
  obtain rfl : meaning = .value type := isVariable
  simp only [Context.integerAt?, declared, leads.elementAlong?]
  split
  · rw [Option.filter_some, if_pos integer, assignmentCode_integer]
  · rfl

/-- A list of objects with unsigned numbers, one of which is counted up. -/
theorem integers_truncated_nested :
    let context := (Context.start fun path => .error (.variableNotDeclared path)).declare
      ⟨"m", .value (.arrayOf (.objectOf (.simple "uint"))), true⟩
    let steps : List Step := [.index [.number (.ofDecimal false 0 0)], .index [.text "k"]]
    let value : List Token := [.number (.ofDecimal false 25 (-1))]
    (Ty.arrayOf (.objectOf (.simple "uint"))).Leads steps (.simple "uint") ∧
      ∃ code after,
        generateKind true 1 (.modify "m" steps .addAssign value) context = (some code, after) ∧
        ∃ target between stored behind,
          resolveWith "m" steps 1 (fun taken start => generateSteps 1 false taken start steps)
            context = (some target, between) ∧
          generateTokens value 1 between = (some stored, behind) ∧
          code = .assign target.code .assign
            (.toUint (.binary .add target.code (.group stored.code))) := by
  intro context steps value
  have leads : (Ty.arrayOf (.objectOf (.simple "uint"))).Leads steps (.simple "uint") :=
    .element _ (.key _ (.here _))
  have run : ∃ code after,
      generateKind true 1 (.modify "m" steps .addAssign value) context = (some code, after) :=
    ⟨_, _, rfl⟩
  obtain ⟨code, after, run⟩ := run
  exact ⟨leads, code, after, run, integers_truncated rfl rfl leads rfl run⟩

/-- **An integer that is reached by the name of a member is not truncated**: half a number stays in an
object of integers. -/
theorem member_stored_whole :
    ¬ ∀ (context after : Context) (binding : Binding) (type reached : Ty) (base : String)
      (steps : List Step) (op : Operator) (value : List Token) (toplevel : Bool) (line : Nat)
      (code : Target.Stmt), context.scopes.lookup? base = some binding →
      binding.meaning = .value type → type.Leads steps reached →
      (reached.isInt || reached.isUint) = true → op.isAssignment = true →
      generateKind toplevel line (.modify base steps op value) context = (some code, after) →
      ∃ target stored, code = .assign target .assign
        (reached.truncate (storedCode op target stored)) := by
  intro truncated
  let binding : Binding := ⟨"o", .value (.objectOf (.simple "int")), false⟩
  let context := (Context.start fun path => .error (.variableNotDeclared path)).declare binding
  let half := Binary64.ofDecimal false 15 (-1)
  have run : generateKind true 1 (.modify "o" [.property "k"] .assign [.number half]) context =
      (some (.assign (.member (.name "o") "k") .assign (.number half)), context) := rfl
  obtain ⟨target, stored, same⟩ := truncated context context binding _ (.simple "int") "o" _ .assign
    [.number half] true 1 _ rfl rfl (.member "k" (.here _)) rfl rfl run
  cases same

end TypedScript
