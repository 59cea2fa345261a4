/-
**Steps that report before they give up.** A step of generation adds diagnostics and takes none
back. Most steps give up only after they have reported something; the few that stop in silence do so
behind a step that has reported.
-/

import TypedScript.Generation.Calls

namespace TypedScript.Gen

variable {condition : Prop} {cause : Cause} {line : Nat} {α β : Type}

/-- A step adds diagnostics only at the end, and under an assumption it has a result of a given kind
unless it adds one. -/
def Delivers (assumed : Prop) (step : Gen α) (kind : α → Prop) : Prop :=
  ∀ before : Context, ∃ added : List Diagnostic,
    (step before).2.diagnostics = before.diagnostics ++ added ∧
      (assumed → added = [] → ∃ value, (step before).1 = some value ∧ kind value)

namespace Delivers

variable {assumed : Prop} {step : Gen α} {kind : α → Prop} {value : α}

/-- A step that delivers and has no result has reported something. -/
theorem reported (delivers : Delivers True step kind) (before : Context)
    (failed : (step before).1 = none) :
    ∃ first rest, (step before).2.diagnostics = before.diagnostics ++ first :: rest := by
  obtain ⟨added, grown, result⟩ := delivers before
  cases added with
  | nil =>
    obtain ⟨value, found, _⟩ := result trivial rfl
    rw [failed] at found
    contradiction
  | cons first rest => exact ⟨first, rest, grown⟩

theorem result_of_quiet (delivers : Delivers True step kind) (before : Context)
    (quiet : (step before).2.diagnostics = before.diagnostics) :
    ∃ value, (step before).1 = some value ∧ kind value := by
  obtain ⟨added, grown, result⟩ := delivers before
  rw [quiet] at grown
  exact result trivial (List.self_eq_append_right.mp grown)

theorem weaken {assumed' : Prop} {kind' : α → Prop} (delivers : Delivers assumed step kind)
    (assumption : assumed' → assumed) (implied : ∀ value, assumed' → kind value → kind' value) :
    Delivers assumed' step kind' := by
  intro before
  obtain ⟨added, grown, result⟩ := delivers before
  refine ⟨added, grown, fun given quiet => ?_⟩
  obtain ⟨value, found, good⟩ := result (assumption given) quiet
  exact ⟨value, found, implied value given good⟩

/-- What needs no assumption may be used under any. -/
theorem given (delivers : Delivers True step kind) : Delivers assumed step kind :=
  delivers.weaken (fun _ => trivial) fun _ _ good => good

/-! ### The parts of a step -/

theorem pure (good : assumed → kind value) : Delivers assumed (Pure.pure value) kind :=
  fun _ => ⟨[], (List.append_nil _).symm, fun given _ => ⟨value, rfl, good given⟩⟩

theorem plain : Delivers assumed (Pure.pure value) fun _ => True :=
  pure fun _ => trivial

/-- One step after another. The second one takes over as an assumption what the first one delivers,
so a silent stop needs an assumption that cannot be. -/
theorem bind {kind' : β → Prop} {next : α → Gen β} (first : Delivers assumed step kind)
    (second : ∀ value, Delivers (assumed ∧ kind value) (next value) kind') :
    Delivers assumed (step >>= next) kind' := by
  intro before
  obtain ⟨added, grown, result⟩ := first before
  have run : (step >>= next) before = step.andThen next before := rfl
  unfold andThen at run
  rcases outcome : step before with ⟨value? | value, after⟩
  · rw [outcome] at grown result run
    rw [run]
    refine ⟨added, grown, fun given quiet => ?_⟩
    obtain ⟨_, found, _⟩ := result given quiet
    contradiction
  · rw [outcome] at grown result run
    rw [run]
    obtain ⟨more, grown', result'⟩ := second value after
    refine ⟨added ++ more, ?_, fun given quiet => ?_⟩
    · rw [grown', grown, List.append_assoc]
    · obtain ⟨quiet, quiet'⟩ := List.append_eq_nil_iff.mp quiet
      obtain ⟨_, found, good⟩ := result given quiet
      obtain rfl := Option.some.inj found
      exact result' ⟨given, good⟩ quiet'

theorem ite [Decidable condition] {other : Gen α} (yes : condition → Delivers assumed step kind)
    (no : ¬condition → Delivers assumed other kind) :
    Delivers assumed (if condition then step else other) kind := by
  split
  · exact yes ‹_›
  · exact no ‹_›

theorem guarded [Decidable condition] {note : Gen Unit} {next : Unit → Gen α}
    (noted : Delivers assumed note fun _ => True) (rest : Delivers assumed (next ()) kind) :
    Delivers assumed (if condition then note >>= next else next ()) kind :=
  ite (fun _ => bind noted fun _ => rest.weaken And.left fun _ _ good => good) fun _ => rest

theorem context : Delivers assumed Gen.context fun _ => True :=
  fun before => ⟨[], (List.append_nil _).symm, fun _ _ => ⟨before, rfl, trivial⟩⟩

theorem change {step : Context → Context}
    (kept : ∀ context, (step context).diagnostics = context.diagnostics) :
    Delivers assumed (Gen.change step) fun _ => True :=
  fun before => ⟨[], (kept before).trans (List.append_nil _).symm,
    fun _ _ => ⟨(), rfl, trivial⟩⟩

theorem stop (unreachable : ¬assumed) : Delivers assumed (Gen.stop : Gen α) kind :=
  fun _ => ⟨[], (List.append_nil _).symm, fun given => absurd given unreachable⟩

theorem report : Delivers assumed (Gen.report cause line) fun _ => True :=
  fun _ => ⟨[⟨cause, line⟩], rfl, fun _ quiet => nomatch quiet⟩

theorem fail : Delivers assumed (Gen.fail cause line) kind :=
  fun _ => ⟨[⟨cause, line⟩], rfl, fun _ quiet => nomatch quiet⟩

theorem ofExcept {outcome : Except Cause α} {line : Nat} :
    Delivers assumed (Gen.ofExcept outcome line) fun value => outcome = .ok value := by
  cases outcome with
  | ok value => exact pure fun _ => rfl
  | error cause => exact fail

theorem expect {check : Except Cause Unit} :
    Delivers assumed (Gen.expect check line) fun _ => True := by
  cases check with
  | ok => exact plain
  | error cause => exact report

theorem reportAll {causes : List Cause} :
    Delivers assumed (Gen.reportAll line causes) fun _ => True := by
  induction causes generalizing assumed with
  | nil => exact plain
  | cons cause rest ih =>
    rw [Gen.reportAll]
    exact bind report fun _ => ih

end Delivers

end TypedScript.Gen
