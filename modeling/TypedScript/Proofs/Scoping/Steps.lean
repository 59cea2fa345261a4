/-
**Steps that stay at a place.** What a step of generation refers to is found in the context that the
step is run in. While an expression is generated this context knows the same names throughout, so
all its references are found at one place. Only helpers are taken into use on the way.
-/

import TypedScript.Proofs.Generation.Delivery
import TypedScript.Proofs.Scoping.Frames

namespace TypedScript

variable {name : String} {binding : Binding} {condition : Prop} {cause : Cause} {line : Nat}

/-! ### Places -/

theorem Scopes.foundIn?_eq (scopes : Scopes) (name : String) :
    scopes.foundIn? name =
      (scopes.frames.map Frame.names).findIdx? fun names => name ∈ names := by
  unfold foundIn?
  rw [List.findIdx?_map]
  congr 1
  funext frame
  rw [Bool.eq_iff_iff, frame.find?_isSome, Function.comp_apply, decide_eq_true_iff]

namespace Context

def Knows (place : Context) (name : String) : Prop :=
  (place.scopes.foundIn? name).isSome = true ∨ (place.module? name).isSome = true

theorem knows_of_lookup? {place : Context} (found : place.scopes.lookup? name = some binding) :
    place.Knows name := by
  rw [Scopes.lookup?_eq] at found
  obtain ⟨depth, inFrame, -⟩ := Option.bind_eq_some_iff.mp found
  exact .inl (Option.isSome_of_eq_some inFrame)

theorem knows_of_module? {place : Context} {module : Module}
    (found : place.module? name = some module) : place.Knows name :=
  .inr (Option.isSome_of_eq_some found)

namespace Alike

variable {place other : Context}

theorem refl (place : Context) : place.Alike place :=
  ⟨rfl, rfl⟩

theorem knows (alike : place.Alike other) (known : other.Knows name) : place.Knows name := by
  unfold Knows module? at known ⊢
  rw [Scopes.foundIn?_eq, alike.names, ← Scopes.foundIn?_eq, alike.imports] at known
  exact known

theorem samePlace {after : Context} (alike : place.Alike other) (same : SamePlace other after) :
    place.Alike after where
  names := by rw [same.scopes, alike.names]
  imports := same.imports.trans alike.imports

theorem declare (alike : place.Alike other) (present : binding.name ∈ other.scopes.current.names) :
    place.Alike (other.declare binding) where
  names := by
    rw [← alike.names]
    show (other.scopes.put binding).frames.map Frame.names = _
    rw [Scopes.frames_put, Scopes.frames_eq_cons other.scopes, List.map_cons, List.map_cons,
      Frame.names_put, if_pos present, List.tail_cons]
  imports := alike.imports

end Alike

/-! ### Helpers -/

variable {before middle after : Context} {used more : List Helper}

/-- The helpers behind a step: those in front of it and those that it takes into use. -/
def Uses (before : Context) (used : List Helper) (after : Context) : Prop :=
  ∀ helper, helper ∈ after.helpers ↔ helper ∈ before.helpers ∨ helper ∈ used

theorem Uses.nothing (same : after.helpers = before.helpers) : before.Uses [] after := by
  intro helper
  simp [same]

theorem Uses.trans (first : before.Uses used middle) (second : middle.Uses more after) :
    before.Uses (more ++ used) after := by
  intro helper
  rw [second, first, List.mem_append, or_assoc, or_comm (a := helper ∈ used)]

theorem uses_use (context : Context) (helper : Helper) :
    context.Uses [helper] (context.use helper) := by
  intro other
  rw [mem_helpers_use, List.mem_singleton]

/-- Nothing has changed, or something was reported. -/
structure Unmoved (before after : Context) : Prop where
  diagnostics : before.diagnostics <+: after.diagnostics
  same : after.diagnostics = before.diagnostics → after = before

instance : IsPreorder Context Unmoved where
  refl _ := ⟨List.prefix_rfl, fun _ => rfl⟩
  trans _ _ _ first second := ⟨first.diagnostics.trans second.diagnostics, fun quiet => by
    have between := quiet_between first.diagnostics second.diagnostics quiet
    exact (second.same (quiet.trans between.symm)).trans (first.same between)⟩

instance (line : Nat) : Tolerates Unmoved False line where
  report _ _ _ := ⟨List.prefix_append _ _, fun quiet =>
    absurd quiet (reported_not_quiet List.prefix_rfl)⟩

end Context

/-! ### Steps -/

namespace Gen

variable {α β : Type}

/-- A step adds diagnostics only at the end; if it adds none and is run at a given place, it has a
result, and the helpers it takes into use and the context behind it are as described. -/
def Ends (place : Context) (assumed : Prop) (step : Gen α)
    (good : α → List Helper → Context → Prop) : Prop :=
  ∀ before : Context, before.diagnostics <+: (step before).2.diagnostics ∧
    (assumed → place.Alike before → (step before).2.diagnostics = before.diagnostics →
      ∃ value used, (step before).1 = some value ∧ before.Uses used (step before).2 ∧
        good value used (step before).2)

/-- A step that leaves the names as they are. -/
abbrev Makes (place : Context) (assumed : Prop) (step : Gen α) (kind : α → List Helper → Prop) :
    Prop :=
  Ends place assumed step fun value used after => place.Alike after ∧ kind value used

/-- A step that stays at its place without the use of helpers. -/
abbrev Finds (place : Context) (assumed : Prop) (step : Gen α) (kind : α → Prop) : Prop :=
  Makes place assumed step fun value used => used = [] ∧ kind value

section Rules

variable {place : Context} {assumed : Prop} {step : Gen α}
  {good : α → List Helper → Context → Prop} {kind : α → List Helper → Prop}

namespace Ends

theorem weaken {assumed' : Prop} {good' : α → List Helper → Context → Prop}
    (ends : Ends place assumed step good) (assumption : assumed' → assumed)
    (implied : ∀ value used after, assumed' → good value used after → good' value used after) :
    Ends place assumed' step good' := by
  intro before
  obtain ⟨grown, result⟩ := ends before
  refine ⟨grown, fun given alike quiet => ?_⟩
  obtain ⟨value, used, found, uses, holds⟩ := result (assumption given) alike quiet
  exact ⟨value, used, found, uses, implied value used _ given holds⟩

theorem pure {value : α} (holds : assumed → kind value []) :
    Makes place assumed (Pure.pure value) kind :=
  fun _ => ⟨List.prefix_rfl, fun given alike _ => ⟨value, [], rfl, .nothing rfl, alike, holds given⟩⟩

/-- One step after another: if both together add no diagnostic, neither does. -/
theorem bind {next : α → Gen β} {good : β → List Helper → Context → Prop}
    (first : Makes place assumed step kind)
    (second : ∀ value used, Ends place (assumed ∧ kind value used) (next value)
      fun result more => good result (more ++ used)) :
    Ends place assumed (step >>= next) good := by
  intro before
  obtain ⟨grown, result⟩ := first before
  have run : (step >>= next) before = step.andThen next before := rfl
  unfold andThen at run
  rcases outcome : step before with ⟨_ | value, middle⟩
  · rw [outcome] at grown result run
    rw [run]
    refine ⟨grown, fun given alike quiet => ?_⟩
    obtain ⟨_, _, found, _⟩ := result given alike quiet
    contradiction
  · rw [outcome] at grown result run
    rw [run]
    refine ⟨grown.trans (second value [] middle).1, fun given alike quiet => ?_⟩
    have same := Context.quiet_between grown (second value [] middle).1 quiet
    obtain ⟨_, used, found, uses, stays, holds⟩ := result given alike same
    obtain rfl := Option.some.inj found
    obtain ⟨last, more, found, uses', holds⟩ :=
      (second value used middle).2 ⟨given, holds⟩ stays (quiet.trans same.symm)
    exact ⟨last, more ++ used, found, uses.trans uses', holds⟩

theorem behind {kind : α → Prop} {next : α → Gen β} {good : β → List Helper → Context → Prop}
    (first : Finds place assumed step kind)
    (second : ∀ value, Ends place (assumed ∧ kind value) (next value) good) :
    Ends place assumed (step >>= next) good := by
  refine bind first fun value used => (second value).weaken (fun given => ⟨given.1, given.2.2⟩)
    fun result more after given holds => ?_
  rwa [given.2.1, List.append_nil]

theorem ite [Decidable condition] {other : Gen α} (yes : condition → Ends place assumed step good)
    (no : ¬condition → Ends place assumed other good) :
    Ends place assumed (if condition then step else other) good := by
  split
  · exact yes ‹_›
  · exact no ‹_›

theorem stop (unreachable : ¬assumed) : Ends place assumed (Gen.stop : Gen α) good :=
  fun _ => ⟨List.prefix_rfl, fun given => absurd given unreachable⟩

theorem fail : Ends place assumed (Gen.fail cause line) good :=
  fun _ => ⟨List.prefix_append _ _, fun _ _ quiet =>
    absurd quiet (Context.reported_not_quiet List.prefix_rfl)⟩

theorem unreachable (delivers : Delivers False step fun _ => True) (impossible : ¬assumed) :
    Ends place assumed step good := by
  intro before
  obtain ⟨added, grown, -⟩ := delivers before
  exact ⟨⟨added, grown.symm⟩, fun given => absurd given impossible⟩

theorem passing [Decidable condition] {next : Unit → Gen α}
    (rest : Ends place (assumed ∧ ¬condition) (next ()) good) :
    Ends place assumed (if condition then Gen.report cause line >>= next else next ()) good := by
  by_cases failed : condition
  · rw [if_pos failed]
    intro before
    obtain ⟨grown, -⟩ := rest (before.report cause line)
    exact ⟨(List.prefix_append _ _).trans grown, fun _ _ quiet =>
      absurd quiet (Context.reported_not_quiet grown)⟩
  · rw [if_neg failed]
    exact rest.weaken (fun given => ⟨given, failed⟩) fun _ _ _ _ holds => holds

theorem changed {change : Context → Context} {value : α}
    (kept : ∀ context, (change context).diagnostics = context.diagnostics ∧
      (change context).helpers = context.helpers)
    (holds : ∀ before, assumed → place.Alike before → good value [] (change before)) :
    Ends place assumed (Gen.change change >>= fun _ => Pure.pure value) good := by
  intro before
  have same : before.diagnostics ++ [] = (change before).diagnostics := by
    rw [List.append_nil, (kept before).1]
  exact ⟨⟨[], same⟩, fun given alike _ =>
    ⟨value, [], rfl, .nothing (kept before).2, holds before given alike⟩⟩

end Ends

namespace Makes

theorem weaken {assumed' : Prop} {kind' : α → List Helper → Prop}
    (makes : Makes place assumed step kind) (assumption : assumed' → assumed)
    (implied : ∀ value used, assumed' → kind value used → kind' value used) :
    Makes place assumed' step kind' :=
  Ends.weaken makes assumption fun value used _ given holds =>
    ⟨holds.1, implied value used given holds.2⟩

/-- What needs no assumption may be used under any. -/
theorem given (makes : Makes place True step kind) : Makes place assumed step kind :=
  weaken makes (fun _ => trivial) fun _ _ _ holds => holds

theorem attempt (makes : Makes place assumed step kind) :
    Makes place assumed step.attempt fun value? used =>
      ∃ value, value? = some value ∧ kind value used := by
  intro before
  obtain ⟨grown, result⟩ := makes before
  refine ⟨grown, fun given alike quiet => ?_⟩
  obtain ⟨value, used, found, uses, stays, holds⟩ := result given alike quiet
  exact ⟨_, used, rfl, uses, stays, value, found, holds⟩

theorem inFunction {returns : Ty} (makes : Makes place assumed step kind) :
    Makes place assumed (Gen.inFunction returns step) kind := by
  intro before
  obtain ⟨grown, result⟩ := makes (before.enterFunction returns)
  refine ⟨grown, fun given alike quiet => ?_⟩
  obtain ⟨value, used, found, uses, stays, holds⟩ :=
    result given ⟨alike.names, alike.imports⟩ quiet
  exact ⟨value, used, found, uses, ⟨stays.names, stays.imports⟩, holds⟩

theorem use {helper : Helper} :
    Makes place assumed (Gen.change fun context => context.use helper)
      fun _ used => used = [helper] := by
  intro before
  have same := before.samePlace_use helper
  exact ⟨same.diagnostics, fun _ alike _ =>
    ⟨(), _, rfl, before.uses_use helper, alike.samePlace same, rfl⟩⟩

end Makes

namespace Finds

variable {kind : α → Prop}

theorem context : Finds place assumed Gen.context fun context => place.Alike context :=
  fun before => ⟨List.prefix_rfl, fun _ alike _ =>
    ⟨before, [], rfl, .nothing rfl, alike, rfl, alike⟩⟩

/-- A step that changes nothing stays at every place. -/
theorem of_keeps (keeps : Keeps Context.Unmoved step) (delivers : Delivers assumed step kind) :
    Finds place assumed step kind := by
  intro before
  have unmoved := keeps before
  obtain ⟨added, grown, result⟩ := delivers before
  refine ⟨unmoved.diagnostics, fun given alike quiet => ?_⟩
  have same := unmoved.same quiet
  rw [quiet] at grown
  obtain ⟨value, found, holds⟩ := result given (List.self_eq_append_right.mp grown)
  rw [same]
  exact ⟨value, [], found, .nothing rfl, alike, rfl, holds⟩

theorem ofExcept {outcome : Except Cause α} :
    Finds place assumed (Gen.ofExcept outcome line) fun value => outcome = .ok value := by
  cases outcome with
  | ok value => exact Ends.pure fun _ => ⟨rfl, rfl⟩
  | error cause => exact Ends.fail

theorem report : Finds place assumed (Gen.report cause line) fun _ => True :=
  fun _ => ⟨List.prefix_append _ _, fun _ _ quiet =>
    absurd quiet (Context.reported_not_quiet List.prefix_rfl)⟩

theorem expect {check : Except Cause Unit} :
    Finds place assumed (Gen.expect check line) fun _ => True := by
  cases check with
  | ok => exact Ends.pure fun _ => ⟨rfl, trivial⟩
  | error cause => exact report

end Finds

theorem Delivers.of_ends {good : Context → α → List Helper → Context → Prop} {kind : α → Prop}
    (ends : ∀ place, Ends place assumed step (good place))
    (implied : ∀ place value used after, good place value used after → kind value) :
    Delivers assumed step kind := by
  intro before
  obtain ⟨⟨added, grown⟩, result⟩ := ends before before
  refine ⟨added, grown.symm, fun given quiet => ?_⟩
  obtain ⟨value, used, found, -, holds⟩ := result given (.refl before)
    (by rw [← grown, quiet, List.append_nil])
  exact ⟨value, found, implied _ _ _ _ holds⟩

end Rules

end Gen

end TypedScript
