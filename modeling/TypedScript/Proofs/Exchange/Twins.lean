/-
**What generation reads of a context.** Names are looked up in frames, but neither their order in a
frame nor whether the statement of a function was reached makes a difference. Two places that agree
in the rest match, and generation goes the same way from both.
-/

import Mathlib.Logic.Function.Basic
import TypedScript.Proofs.Scoping.Steps

namespace TypedScript

variable {binding : Binding} {before : Context} {condition fixed quiet : Prop} {cause : Cause}
  {line : Nat} {note : Gen γ} {note' : Gen δ} {bindings : List Binding}

/-! ### Declarations -/

/-- The meaning of a function after its statement. -/
def Meaning.reached : Meaning → Meaning
  | .value type => .value type
  | .function params returns async _ => .function params returns async false

/-- Declarations that differ at most in whether the statement of a function was reached. -/
structure Binding.Matches (binding other : Binding) : Prop where
  name : other.name = binding.name
  meaning : other.meaning.reached = binding.meaning.reached
  constant : other.constant = binding.constant

/-- The declaration of a function after its statement, and any other declaration as it is. -/
def Binding.reached (binding : Binding) : Binding :=
  { binding with meaning := binding.meaning.reached }

theorem Binding.reached_reached (binding : Binding) :
    binding.reached.reached = binding.reached := by
  obtain ⟨_, _ | _, _⟩ := binding <;> rfl

theorem Binding.matched_of_reached {other : Binding} (same : binding.reached = other.reached) :
    binding.Matches other := by
  obtain ⟨name, meaning, constant⟩ := Binding.mk.inj same
  exact ⟨name.symm, meaning.symm, constant.symm⟩

theorem Binding.Matches.type {other : Binding} (matched : binding.Matches other) :
    other.type = binding.type := by
  obtain ⟨_, meaning, _⟩ := binding
  obtain ⟨_, meaning', _⟩ := other
  have same := matched.meaning
  cases meaning <;> cases meaning' <;> simp_all [Meaning.reached, Binding.type]

/-! ### Frames -/

/-- What a frame says about names. -/
def Frame.view (frame : Frame) (name : String) : Option Binding :=
  (frame.find? name).map Binding.reached

theorem Frame.find?_put (frame : Frame) (binding : Binding) (name : String) :
    (frame.put binding).find? name =
      if binding.name = name then some binding else frame.find? name := by
  obtain ⟨bindings⟩ := frame
  unfold Frame.put Frame.find?
  induction bindings with
  | nil => by_cases found : binding.name = name <;> simp [Frame.putIn, found]
  | cons other rest ih =>
    by_cases same : other.name = binding.name
    · rw [Frame.putIn, if_pos same, List.find?_cons, List.find?_cons, same]
      by_cases found : binding.name = name
      · simp [found]
      · rw [beq_false_of_ne found, if_neg found]
    · rw [Frame.putIn, if_neg same, List.find?_cons, List.find?_cons, ih]
      by_cases found : other.name = name
      · subst found
        simp [Ne.symm same]
      · rw [beq_false_of_ne found]

theorem Frame.view_put (frame : Frame) (binding : Binding) :
    (frame.put binding).view = Function.update frame.view binding.name (some binding.reached) := by
  funext name
  unfold Frame.view
  rw [Frame.find?_put, Function.update_apply]
  by_cases same : binding.name = name
  · rw [if_pos same, if_pos same.symm]
    rfl
  · rw [if_neg same, if_neg (Ne.symm same)]

namespace Scopes

/-- What the frames say about names, the innermost first. -/
def views (scopes : Scopes) : List (String → Option Binding) :=
  scopes.frames.map Frame.view

theorem views_eq_cons (scopes : Scopes) :
    scopes.views = scopes.current.view :: scopes.views.tail := by
  unfold views
  rw [frames_eq_cons, List.map_cons, List.tail_cons]

theorem lookup?_reached (scopes : Scopes) (name : String) :
    (scopes.lookup? name).map Binding.reached = scopes.views.findSome? fun view => view name := by
  unfold lookup? views
  induction scopes.frames with
  | nil => rfl
  | cons frame rest ih =>
    rw [List.map_cons, List.findSome?_cons, List.findSome?_cons, ← ih]
    unfold Frame.view
    cases frame.find? name <;> rfl

theorem views_put (scopes : Scopes) (binding : Binding) :
    (scopes.put binding).views =
      Function.update scopes.current.view binding.name (some binding.reached) ::
        scopes.views.tail := by
  unfold views
  rw [frames_put, List.map_cons, Frame.view_put, List.map_tail]

theorem views_pop (scopes : Scopes) :
    scopes.pop.views = if scopes.views.length = 1 then scopes.views else scopes.views.tail := by
  obtain ⟨_ | ⟨frame, outer⟩, outermost⟩ := scopes
  · rfl
  · rw [if_neg (by simp [views, frames])]
    rfl

end Scopes

/-! ### Places -/

/-- **Places that generation does not tell apart.** -/
structure Context.Matches (context other : Context) : Prop where
  load : other.load = context.load
  imports : other.imports = context.imports
  views : other.scopes.views = context.scopes.views
  returns : other.returns = context.returns

namespace Context

variable {context other : Context}

theorem Matches.symm (matched : context.Matches other) : other.Matches context :=
  ⟨matched.load.symm, matched.imports.symm, matched.views.symm, matched.returns.symm⟩

theorem Matches.trans {third : Context} (first : context.Matches other)
    (second : other.Matches third) : context.Matches third :=
  ⟨second.load.trans first.load, second.imports.trans first.imports,
    second.views.trans first.views, second.returns.trans first.returns⟩

instance : IsPreorder Context Matches where
  refl _ := ⟨rfl, rfl, rfl, rfl⟩
  trans _ _ _ := .trans

theorem SamePlace.matched {after : Context} (same : SamePlace before after) :
    before.Matches after where
  load := same.load
  imports := same.imports
  views := by rw [same.scopes]
  returns := same.returns

namespace Matches

theorem optionMatches {binding? other? : Option Binding}
    (same : binding?.map Binding.reached = other?.map Binding.reached) :
    Option.Rel Binding.Matches binding? other? := by
  cases binding? with
  | none =>
    cases other? with
    | none => exact .none
    | some other => contradiction
  | some binding =>
    cases other? with
    | none => contradiction
    | some other => exact .some (Binding.matched_of_reached (Option.some.inj same))

variable {context other : Context} (matched : context.Matches other)

include matched

theorem module? (name : String) : other.module? name = context.module? name := by
  unfold Context.module?
  rw [matched.imports]

theorem lookup? (name : String) :
    Option.Rel Binding.Matches (context.scopes.lookup? name) (other.scopes.lookup? name) := by
  refine optionMatches ?_
  rw [Scopes.lookup?_reached, Scopes.lookup?_reached, matched.views]

theorem view_current : other.scopes.current.view = context.scopes.current.view := by
  have same := matched.views
  rw [Scopes.views_eq_cons, Scopes.views_eq_cons context.scopes] at same
  exact (List.cons.inj same).1

theorem lookupCurrent? (name : String) :
    Option.Rel Binding.Matches (context.scopes.lookupCurrent? name)
      (other.scopes.lookupCurrent? name) :=
  optionMatches (congrFun matched.view_current name).symm

theorem isTaken (name : String) : other.isTaken name = context.isTaken name := by
  have found := matched.lookupCurrent? name
  unfold Context.isTaken
  rw [matched.module? name]
  generalize context.scopes.lookupCurrent? name = binding?,
    other.scopes.lookupCurrent? name = other? at found
  cases found <;> rfl

theorem declare (binding : Binding) :
    (context.declare binding).Matches (other.declare binding) where
  load := matched.load
  imports := matched.imports
  views := by
    show (other.scopes.put binding).views = (context.scopes.put binding).views
    rw [Scopes.views_put, Scopes.views_put, matched.view_current, matched.views]
  returns := matched.returns

theorem enterBlock : context.enterBlock.Matches other.enterBlock where
  load := matched.load
  imports := matched.imports
  views := congrArg (List.cons fun _ => none) matched.views
  returns := matched.returns

theorem leaveBlock : context.leaveBlock.Matches other.leaveBlock where
  load := matched.load
  imports := matched.imports
  views := by
    show other.scopes.pop.views = context.scopes.pop.views
    rw [Scopes.views_pop, Scopes.views_pop, matched.views]
  returns := matched.returns

end Matches

theorem matched_declare_reached (context : Context)
    (found : context.scopes.lookupCurrent? binding.name = some binding) :
    context.Matches (context.declare binding.reached) where
  load := rfl
  imports := rfl
  views := by
    have view : context.scopes.current.view binding.name = some binding.reached :=
      congrArg (Option.map Binding.reached) found
    show (context.scopes.put binding.reached).views = _
    rw [Scopes.views_put, Binding.reached_reached, Scopes.views_eq_cons context.scopes]
    exact congrArg (· :: _) (view ▸ Function.update_eq_self ..)
  returns := rfl

end Context

/-! ### Steps -/

namespace Gen

variable {α β γ δ : Type}

/-- Two runs add the same diagnostics, in some order or in the same one, and the same helpers, and
end in places that match. -/
structure Together (fixed : Prop) (added : List Diagnostic)
    (before before' after after' : Context) : Prop where
  diagnostics : after.diagnostics = before.diagnostics ++ added
  reordered : ∃ added', after'.diagnostics = before'.diagnostics ++ added' ∧ added.Perm added' ∧
    (fixed → added' = added)
  helpers : ∃ used, before.Uses used after ∧ before'.Uses used after'
  inOrder : fixed → before'.helpers = before.helpers → after'.helpers = after.helpers
  matched : after.Matches after'

namespace Together

variable {before' middle middle' after after' : Context} {added more : List Diagnostic}

theorem of_kept (matched : after.Matches after')
    (kept : after.diagnostics = before.diagnostics ∧ after.helpers = before.helpers)
    (kept' : after'.diagnostics = before'.diagnostics ∧ after'.helpers = before'.helpers) :
    Together fixed [] before before' after after' where
  diagnostics := kept.1.trans (List.append_nil _).symm
  reordered := ⟨[], kept'.1.trans (List.append_nil _).symm, .refl _, fun _ => rfl⟩
  helpers := ⟨[], .nothing kept.2, .nothing kept'.2⟩
  inOrder _ same := kept'.2.trans (same.trans kept.2.symm)
  matched := matched

theorem report (matched : before.Matches before') :
    Together fixed [⟨cause, line⟩] before before' (before.report cause line)
      (before'.report cause line) where
  diagnostics := rfl
  reordered := ⟨_, rfl, .refl _, fun _ => rfl⟩
  helpers := ⟨[], .nothing rfl, .nothing rfl⟩
  inOrder _ same := same
  matched := ⟨matched.load, matched.imports, matched.views, matched.returns⟩

theorem trans (first : Together fixed added before before' middle middle')
    (second : Together fixed more middle middle' after after') :
    Together fixed (added ++ more) before before' after after' := by
  obtain ⟨added', grown, same, kept⟩ := first.reordered
  obtain ⟨more', grown', same', kept'⟩ := second.reordered
  obtain ⟨used, uses, uses'⟩ := first.helpers
  obtain ⟨_, again, again'⟩ := second.helpers
  constructor
  · rw [second.diagnostics, first.diagnostics, List.append_assoc]
  · refine ⟨added' ++ more', ?_, same.append same', fun inOrder => ?_⟩
    · rw [grown', grown, List.append_assoc]
    · rw [kept inOrder, kept' inOrder]
  · exact ⟨_, uses.trans again, uses'.trans again'⟩
  · exact fun inOrder same => second.inOrder inOrder (first.inOrder inOrder same)
  · exact second.matched

end Together

/-- Two steps that, from places that match, run together to related results. The relation may say
more if nothing is reported. -/
def Twins (fixed quiet : Prop) (related : Prop → α → β → Prop) (step : Gen α) (step' : Gen β) :
    Prop :=
  ∀ before before' : Context, before.Matches before' → ∃ added,
    Together fixed added before before' (step before).2 (step' before').2 ∧
      Option.Rel (related (quiet ∧ added = [])) (step before).1 (step' before').1

/-- Two steps of which only the way matters. -/
abbrev Paired (fixed : Prop) (step : Gen α) (step' : Gen β) : Prop :=
  Twins fixed True (fun _ _ _ => True) step step'

/-- Results that are related if nothing is reported. -/
def IfQuiet (related : α → β → Prop) (quiet : Prop) (value : α) (value' : β) : Prop :=
  quiet → related value value'

namespace Twins

variable {related : Prop → α → β → Prop} {step : Gen α} {step' : Gen β}

theorem of_kept (run : ∀ before before', before.Matches before' →
      Together fixed [] before before' (step before).2 (step' before').2 ∧
        Option.Rel (related quiet) (step before).1 (step' before').1) :
    Twins fixed quiet related step step' := by
  intro before before' matched
  obtain ⟨together, results⟩ := run before before' matched
  refine ⟨[], together, ?_⟩
  rwa [eq_self, and_true]

/-- Only the way matters. -/
theorem forget {now : Prop} (twins : Twins fixed quiet related step step') :
    Twins fixed now (fun _ _ _ => True) step step' := by
  intro before before' matched
  obtain ⟨added, together, results⟩ := twins before before' matched
  refine ⟨added, together, ?_⟩
  generalize (step before).1 = value?, (step' before').1 = value?' at results
  cases results with
  | none => exact .none
  | some => exact .some trivial

theorem pure {value : α} {value' : β} (holds : related quiet value value') :
    Twins fixed quiet related (Pure.pure value) (Pure.pure value') :=
  of_kept fun _ _ matched => ⟨.of_kept matched ⟨rfl, rfl⟩ ⟨rfl, rfl⟩, .some holds⟩

theorem known (value : α) : Twins fixed quiet (fun _ => Eq) (Pure.pure value) (Pure.pure value) :=
  pure rfl

theorem stop : Twins fixed quiet related Gen.stop Gen.stop :=
  of_kept fun _ _ matched => ⟨.of_kept matched ⟨rfl, rfl⟩ ⟨rfl, rfl⟩, .none⟩

theorem fail : Twins fixed quiet related (Gen.fail cause line) (Gen.fail cause line) :=
  fun _ _ matched => ⟨_, .report matched, .none⟩

theorem report : Paired fixed (Gen.report cause line) (Gen.report cause line) :=
  fun _ _ matched => ⟨_, .report matched, .some trivial⟩

theorem context : Twins fixed quiet (fun _ => Context.Matches) Gen.context Gen.context :=
  of_kept fun _ _ matched => ⟨.of_kept matched ⟨rfl, rfl⟩ ⟨rfl, rfl⟩, .some matched⟩

theorem change {step step' : Context → Context}
    (kept : ∀ context, (step context).diagnostics = context.diagnostics ∧
      (step context).helpers = context.helpers)
    (kept' : ∀ context, (step' context).diagnostics = context.diagnostics ∧
      (step' context).helpers = context.helpers)
    (matched : ∀ before before', before.Matches before' → (step before).Matches (step' before')) :
    Paired fixed (Gen.change step) (Gen.change step') :=
  of_kept fun before before' same =>
    ⟨.of_kept (matched before before' same) (kept before) (kept' before'), .some trivial⟩

theorem use (helper : Helper) :
    Paired fixed (Gen.change fun context => context.use helper)
      (Gen.change fun context => context.use helper) := by
  have quiet (context : Context) : (context.use helper).diagnostics = context.diagnostics := by
    unfold Context.use
    split_ifs <;> rfl
  refine of_kept fun before before' matched => ⟨?_, .some trivial⟩
  constructor
  · exact (quiet before).trans (List.append_nil _).symm
  · exact ⟨[], (quiet before').trans (List.append_nil _).symm, .refl _, fun _ => rfl⟩
  · exact ⟨_, before.uses_use helper, before'.uses_use helper⟩
  · intro _ same
    show (before'.use helper).helpers = (before.use helper).helpers
    unfold Context.use
    rw [same]
    split_ifs
    · exact same
    · rfl
  · exact (Context.samePlace_use before helper).matched.symm.trans
      (matched.trans (Context.samePlace_use before' helper).matched)

/-- One step after another. Nothing is reported if neither half reports anything. -/
theorem bind {related' : Prop → γ → δ → Prop} {next : α → Gen γ} {next' : β → Gen δ}
    (first : Twins fixed quiet related step step')
    (second : ∀ (now : Prop) value value', (now → quiet) → related now value value' →
      Twins fixed now related' (next value) (next' value')) :
    Twins fixed quiet related' (step >>= next) (step' >>= next') := by
  intro before before' matched
  have run : (step >>= next) before = step.andThen next before := rfl
  have run' : (step' >>= next') before' = step'.andThen next' before' := rfl
  unfold andThen at run run'
  obtain ⟨added, together, results⟩ := first before before' matched
  rcases outcome : step before with ⟨value?, after⟩
  rcases outcome' : step' before' with ⟨value?', after'⟩
  rw [outcome] at run together results
  rw [outcome'] at run' together results
  rw [run, run']
  cases results with
  | none => exact ⟨added, together, .none⟩
  | some holds =>
    obtain ⟨more, together', results'⟩ := second _ _ _ And.left holds after after' together.matched
    refine ⟨added ++ more, together.trans together', ?_⟩
    rwa [List.append_eq_nil_iff, ← and_assoc]

theorem after (noted : Paired fixed note note')
    (rest : ∀ now : Prop, (now → quiet) → Twins fixed now related step step') :
    Twins fixed quiet related (note >>= fun _ => step) (note' >>= fun _ => step') := by
  have noted : Twins fixed quiet (fun _ _ _ => True) note note' := noted
  exact bind noted fun now _ _ earlier _ => rest now earlier

theorem paired_after {note : Gen γ} {note' : Gen δ} (noted : Paired fixed note note')
    (rest : Paired fixed step step') :
    Paired fixed (note >>= fun _ => step) (note' >>= fun _ => step') :=
  after noted fun _ _ => rest

theorem ite [Decidable condition] {other : Gen α} {other' : Gen β}
    (yes : Twins fixed quiet related step step') (no : Twins fixed quiet related other other') :
    Twins fixed quiet related (if condition then step else other)
      (if condition then step' else other') := by
  split
  · exact yes
  · exact no

theorem guarded [Decidable condition] {note note' : Gen Unit} {next : Unit → Gen α}
    {next' : Unit → Gen β} (noted : Paired fixed note note')
    (rest : ∀ now : Prop, (now → quiet) → Twins fixed now related (next ()) (next' ())) :
    Twins fixed quiet related (if condition then note >>= next else next ())
      (if condition then note' >>= next' else next' ()) :=
  ite (after noted rest) (rest quiet id)

theorem ofExcept {outcome : Except Cause α} :
    Twins fixed quiet (fun _ => Eq) (Gen.ofExcept outcome line) (Gen.ofExcept outcome line) := by
  cases outcome with
  | ok value => exact pure rfl
  | error cause => exact fail

theorem expect {check : Except Cause Unit} :
    Paired fixed (Gen.expect check line) (Gen.expect check line) := by
  cases check with
  | ok => exact pure trivial
  | error cause => exact report

theorem reportAll {causes : List Cause} :
    Paired fixed (Gen.reportAll line causes) (Gen.reportAll line causes) := by
  induction causes with
  | nil => exact pure trivial
  | cons cause rest ih => exact paired_after report ih

theorem attempt {kind : α → Prop} (twins : Twins fixed quiet related step step')
    (delivers : Delivers True step kind) :
    Twins fixed quiet (fun now value? value?' => Option.Rel (related now) value? value?' ∧
      (now → ∃ value, value? = some value ∧ kind value)) step.attempt step'.attempt := by
  intro before before' matched
  obtain ⟨added, together, results⟩ := twins before before' matched
  refine ⟨added, together, .some ⟨results, fun now => ?_⟩⟩
  refine delivers.result_of_quiet before ?_
  rw [together.diagnostics, now.2, List.append_nil]

theorem attempted (twins : Twins fixed quiet related step step') :
    Twins fixed quiet (fun now => Option.Rel (related now)) step.attempt step'.attempt := by
  intro before before' matched
  obtain ⟨added, together, results⟩ := twins before before' matched
  exact ⟨added, together, .some results⟩

theorem attempt_stop (noted : Paired fixed note note') :
    Twins fixed quiet (fun _ value? value?' => value? = none ∧ value?' = none)
      (note >>= fun _ => (Gen.stop : Gen α)).attempt
      (note' >>= fun _ => (Gen.stop : Gen β)).attempt := by
  have run {ε ζ : Type} (note : Gen ε) (context : Context) :
      (note >>= fun _ => (Gen.stop : Gen ζ)) context = (none, (note context).2) := by
    show note.andThen _ context = _
    unfold andThen
    rcases note context with ⟨_ | _, _⟩ <;> rfl
  intro before before' matched
  obtain ⟨added, together, -⟩ := noted before before' matched
  unfold Gen.attempt
  rw [run, run]
  exact ⟨added, together, .some ⟨rfl, rfl⟩⟩

/-- **Two attempts in either order**, each of which leaves a place that matches the one before. -/
theorem exchange {own : Prop → Option α → Option α → Prop} {other : Gen β} {step : Gen α}
    {own' : Prop → Option β → Option β → Prop} {related : Prop → γ → γ → Prop}
    {next next' : Option α → Option β → Gen γ}
    (twins : Twins False quiet own step.attempt step.attempt)
    (twins' : ∀ now : Prop, Twins False now own' other.attempt other.attempt)
    (keeps : Keeps Context.Matches step) (keeps' : Keeps Context.Matches other)
    (rest : ∀ (now earlier : Prop) first first' second second', (now → earlier) →
      own earlier first first' → own' now second second' →
      Twins False now related (next first second) (next' first' second')) :
    Twins False quiet related (step.attempt >>= fun first => other.attempt >>= next first)
      (other.attempt >>= fun second => step.attempt >>= fun first => next' first second) := by
  intro before before' matched
  obtain ⟨added, together, result⟩ :=
    twins before (other before').2 (matched.trans (keeps' before'))
  obtain ⟨more, together', result'⟩ :=
    twins' (quiet ∧ added = []) (step before).2 before' ((keeps before).symm.trans matched)
  have behind : (other (step before).2).2.Matches (step (other before').2).2 :=
    ((keeps before).trans (keeps' _)).symm.trans (matched.trans ((keeps' before').trans (keeps _)))
  have both : Together False (added ++ more) before before' (other (step before).2).2
      (step (other before').2).2 := by
    obtain ⟨added', grown, same, -⟩ := together.reordered
    obtain ⟨more', grown', same', -⟩ := together'.reordered
    obtain ⟨used, uses, uses'⟩ := together.helpers
    obtain ⟨used', again, again'⟩ := together'.helpers
    refine ⟨?_, ⟨more' ++ added', ?_, (same.append same').trans List.perm_append_comm,
      False.elim⟩, ⟨_, uses.trans again, fun helper => ?_⟩, False.elim, behind⟩
    · exact (together'.diagnostics.trans (congrArg (· ++ more) together.diagnostics)).trans
        (List.append_assoc ..)
    · exact (grown.trans (congrArg (· ++ added') grown')).trans (List.append_assoc ..)
    · refine (again'.trans uses' helper).trans (or_congr_right ?_)
      rw [List.mem_append, List.mem_append, or_comm]
  cases result with
  | some holds =>
    cases result' with
    | some holds' =>
      obtain ⟨last, together'', results⟩ := rest _ _ _ _ _ _ And.left holds holds' _ _ behind
      refine ⟨added ++ more ++ last, both.trans together'', ?_⟩
      rwa [List.append_eq_nil_iff, List.append_eq_nil_iff, ← and_assoc, ← and_assoc]

theorem declare (binding : Binding) :
    Paired fixed (Gen.change fun context => context.declare binding)
      (Gen.change fun context => context.declare binding) :=
  change (fun _ => ⟨rfl, rfl⟩) (fun _ => ⟨rfl, rfl⟩) fun _ _ matched => matched.declare binding

theorem declareAll :
    Paired fixed (Gen.declareAll line bindings) (Gen.declareAll line bindings) := by
  induction bindings with
  | nil => exact pure trivial
  | cons binding rest ih =>
    refine bind context fun _ context context' _ matched => ?_
    have found := matched.lookupCurrent? binding.name
    generalize context.scopes.lookupCurrent? binding.name = found?,
      context'.scopes.lookupCurrent? binding.name = found?' at found
    show Paired fixed _ _
    cases found with
    | none => exact paired_after (declare binding) ih
    | some _ => exact paired_after report (paired_after (declare binding) ih)

theorem inBlock (twins : ∀ now : Prop, (now → quiet) → Twins fixed now related step step') :
    Twins fixed quiet related (Gen.inBlock bindings line step)
      (Gen.inBlock bindings line step') := by
  intro before before' matched
  have inside : Twins fixed quiet related (Gen.declareAll line bindings >>= fun _ => step)
      (Gen.declareAll line bindings >>= fun _ => step') := after declareAll twins
  obtain ⟨added, together, results⟩ :=
    inside before.enterBlock before'.enterBlock matched.enterBlock
  exact ⟨added, { together with matched := together.matched.leaveBlock }, results⟩

theorem inFunction {returns : Ty} (twins : Twins fixed quiet related step step') :
    Twins fixed quiet related (Gen.inFunction returns step) (Gen.inFunction returns step') := by
  intro before before' matched
  obtain ⟨added, together, results⟩ :=
    twins (before.enterFunction returns) (before'.enterFunction returns)
      ⟨matched.load, matched.imports, matched.views, congrArg (List.cons returns) matched.returns⟩
  have behind := together.matched
  exact ⟨added, { together with matched :=
    ⟨behind.load, behind.imports, behind.views, congrArg List.tail behind.returns⟩ }, results⟩

end Twins

end Gen

end TypedScript
