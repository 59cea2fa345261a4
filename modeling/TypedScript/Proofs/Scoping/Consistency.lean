/-
**Names stay apart.** Names enter a context as functions, variables, parameters and modules, and
each of these ways has its own checks. Together they see to it that no frame declares a name twice,
no module is imported twice, and no module bears the name of another one or of a declaration of the
outermost frame.

* `generateStatement_consistent`, `generateLevel_consistent`: statements and blocks keep consistent
  contexts consistent.
-/

import Mathlib.Data.List.Nodup
import TypedScript.Proofs.Scoping.Agreement

namespace TypedScript

open Context (SamePlace)

variable {binding : Binding} {name path : String} {after before : Context} {module : Module}
  {kind : Kind} {line : Nat}

/-! ### Consistent contexts -/

theorem Frame.nodup_put {frame : Frame} (nodup : frame.names.Nodup) (binding : Binding) :
    (frame.put binding).names.Nodup := by
  rw [Frame.names_put]
  split_ifs with present
  · exact nodup
  · rw [← List.concat_eq_append]
    exact List.Nodup.concat present nodup

theorem Scopes.current_mem (scopes : Scopes) : scopes.current ∈ scopes.frames := by
  rw [frames_eq_cons]
  exact List.mem_cons_self

/-- Declaring a name enters and leaves no block. -/
theorem Scopes.inner_put {scopes : Scopes} :
    (scopes.put binding).inner = [] ↔ scopes.inner = [] := by
  obtain ⟨_ | ⟨frame, outer⟩, outermost⟩ := scopes
  · exact Iff.rfl
  · exact ⟨nofun, nofun⟩

theorem Scopes.outermost_mem (scopes : Scopes) : scopes.outermost ∈ scopes.frames :=
  List.mem_append_right _ List.mem_cons_self

namespace Context

/-- No name and no path of a context stands for two things. -/
structure Consistent (place : Context) : Prop where
  /-- A module bears the path that it is loaded from. -/
  loads : ∀ path module, place.load path = .ok module → module.path = path
  framed : place.scopes.frames ≠ []
  frames : ∀ frame ∈ place.scopes.frames, frame.names.Nodup
  paths : (place.imports.map Module.path).Nodup
  modules : (place.imports.map Module.name).Nodup
  apart : ∀ module ∈ place.imports, module.name ∉ place.scopes.outermost.names

theorem start_consistent {load : String → Except Cause Module}
    (loads : ∀ path module, load path = .ok module → module.path = path) :
    (start load).Consistent where
  loads := loads
  framed := List.cons_ne_nil _ _
  frames := by
    intro frame member
    obtain rfl := List.mem_singleton.mp member
    exact List.nodup_nil
  paths := List.nodup_nil
  modules := List.nodup_nil
  apart := nofun

theorem module?_eq_none_iff {place : Context} :
    place.module? name = none ↔ ∀ module ∈ place.imports, module.name ≠ name := by
  unfold module?
  rw [List.find?_eq_none]
  simp only [beq_iff_eq]

theorem isTaken_eq_false_iff {place : Context} :
    place.isTaken name = false ↔
      name ∉ place.scopes.current.names ∧ ∀ module ∈ place.imports, module.name ≠ name := by
  unfold isTaken Scopes.lookupCurrent?
  rw [Bool.or_eq_false_iff, ← Frame.find?_isSome, ← module?_eq_none_iff, Bool.not_eq_true,
    ← Option.isNone_iff_eq_none, ← Option.isSome_eq_false_iff]

namespace Consistent

variable {place : Context}

theorem samePlace (consistent : place.Consistent) (same : SamePlace place after) :
    after.Consistent := by
  obtain ⟨loads, framed, frames, paths, modules, apart⟩ := consistent
  constructor
  · rwa [same.load]
  · rwa [same.scopes]
  · rwa [same.scopes]
  · rwa [same.imports]
  · rwa [same.imports]
  · rwa [same.imports, same.scopes]

theorem enterBlock (consistent : place.Consistent) : place.enterBlock.Consistent :=
  { consistent with
    framed := List.cons_ne_nil _ _
    frames := List.forall_mem_cons.mpr ⟨List.nodup_nil, consistent.frames⟩ }

theorem enterFunction (consistent : place.Consistent) (returns : Ty) :
    (place.enterFunction returns).Consistent :=
  { consistent with }

/-- A declaration keeps a context consistent, if no module of the outermost frame is in its way. -/
theorem declare (consistent : place.Consistent)
    (clear : place.scopes.inner = [] → ∀ module ∈ place.imports, module.name ≠ binding.name) :
    (place.declare binding).Consistent := by
  have frames : (place.declare binding).scopes.frames = _ := place.scopes.frames_put binding
  refine { consistent with framed := ?_, frames := ?_, apart := ?_ }
  · rw [frames]
    exact List.cons_ne_nil _ _
  · rw [frames]
    refine List.forall_mem_cons.mpr ⟨?_, fun frame member => ?_⟩
    · exact Frame.nodup_put (consistent.frames _ place.scopes.current_mem) binding
    · exact consistent.frames frame (List.mem_of_mem_tail member)
  · intro module member
    have apart := consistent.apart module member
    show module.name ∉ (place.scopes.put binding).outermost.names
    unfold Scopes.put
    split
    · rename_i only
      show module.name ∉ (place.scopes.outermost.put binding).names
      rw [Frame.names_put]
      split_ifs
      · exact apart
      · rw [List.mem_append, List.mem_singleton]
        exact fun found => found.elim apart (clear only module member)
    · exact apart

theorem declare_free (consistent : place.Consistent) (free : place.isTaken binding.name = false) :
    (place.declare binding).Consistent :=
  consistent.declare fun _ => (isTaken_eq_false_iff.mp free).2

theorem declare_present (consistent : place.Consistent)
    (present : binding.name ∈ place.scopes.current.names) :
    (place.declare binding).Consistent := by
  refine consistent.declare fun only module member same => ?_
  rw [Scopes.current, only] at present
  exact consistent.apart module member (same ▸ present)

theorem nodup_map_concat {imports : List Module} {key : Module → String}
    (nodup : (imports.map key).Nodup) (new : ∀ other ∈ imports, key other ≠ key module) :
    ((imports ++ [module]).map key).Nodup := by
  rw [← List.concat_eq_append, List.map_concat]
  refine List.Nodup.concat (fun found => ?_) nodup
  obtain ⟨other, member, same⟩ := List.mem_map.mp found
  exact new other member same

theorem imports (consistent : place.Consistent)
    (path : ∀ other ∈ place.imports, other.path ≠ module.path)
    (unnamed : place.module? module.name = none)
    (undeclared : place.scopes.lookup? module.name = none) :
    { place with imports := place.imports ++ [module] : Context }.Consistent := by
  have unnamed := module?_eq_none_iff.mp unnamed
  refine { consistent with paths := ?_, modules := ?_, apart := ?_ }
  · exact nodup_map_concat consistent.paths path
  · exact nodup_map_concat consistent.modules unnamed
  · refine List.forall_mem_append.mpr ⟨consistent.apart, ?_⟩
    rw [List.forall_mem_singleton, ← Frame.find?_isSome, Bool.not_eq_true,
      Option.isSome_eq_false_iff, Option.isNone_iff_eq_none]
    exact List.findSome?_eq_none_iff.mp undeclared _ place.scopes.outermost_mem

end Consistent

def StaysConsistent (before after : Context) : Prop :=
  before.Consistent → after.Consistent

instance : IsPreorder Context StaysConsistent where
  refl _ := id
  trans _ _ _ first second := second ∘ first

end Context

open Context (StaysConsistent)

/-! ### Loading -/

theorem Module.path_ofHeader {header : Header} {code : List Char}
    (made : ofHeader path header code = .ok module) : module.path = path := by
  unfold ofHeader at made
  simp only [bind, Except.bind, pure, Except.pure] at made
  split at made
  · contradiction
  · split at made
    · contradiction
    · split at made
      · contradiction
      · split at made
        · contradiction
        · exact (Except.ok.inj made) ▸ rfl

theorem Options.load_path {options : Options} {read : String → Except FileFault String}
    (loaded : options.load read path = .ok module) :
    module.path = path := by
  unfold Options.load Module.parse at loaded
  split at loaded
  · contradiction
  · split at loaded
    · contradiction
    · split at loaded
      · contradiction
      · exact Module.path_ofHeader loaded

/-! ### Statements -/

def Kind.variable? : Kind → Option String
  | .declare name _ _ _ => some name
  | _ => none

/-- **All that a statement can do** to frames and imports. -/
inductive Kind.Moves (before : Context) : Kind → Context → Prop
  | stays {kind : Kind} {after : Context} (plain : kind.variable? = none)
      (same : SamePlace before after) : Moves before kind after
  | refused {kind : Kind} {after : Context} (same : SamePlace before after)
      (reported : after.diagnostics ≠ before.diagnostics) : Moves before kind after
  | declares {name : String} {type recorded : Ty} {value : List Token} {constant : Bool}
      {after : Context} (free : before.isTaken name = false)
      (same : SamePlace (before.declare ⟨name, .value recorded, constant⟩) after) :
      Moves before (.declare name type value constant) after
  | reaches {name : String} {params : List Param} {returns : Ty} {body : List Stmt}
      {binding : Binding} {after : Context}
      (present : binding.name ∈ before.scopes.current.names)
      (same : SamePlace (before.declare binding) after) :
      Moves before (.function name params returns body) after
  | imports {path : String} {module : Module} (loaded : before.load path = .ok module)
      (path_new : ∀ other ∈ before.imports, other.path ≠ path)
      (unnamed : before.module? module.name = none)
      (undeclared : before.scopes.lookup? module.name = none) :
      Moves before (.imports path) { before with imports := before.imports ++ [module] }

/-- No such step makes a context inconsistent. -/
theorem Kind.Moves.consistent (moves : kind.Moves before after) : StaysConsistent before after := by
  intro consistent
  cases moves with
  | stays _ same | refused same _ => exact consistent.samePlace same
  | declares free same => exact (consistent.declare_free free).samePlace same
  | reaches present same => exact (consistent.declare_present present).samePlace same
  | imports loaded path_new unnamed undeclared =>
    have path := consistent.loads _ _ loaded
    exact consistent.imports (path ▸ path_new) unnamed undeclared

theorem Context.SamePlace.declare (same : SamePlace before after) (binding : Binding) :
    SamePlace (before.declare binding) (after.declare binding) where
  load := same.load
  imports := same.imports
  scopes := congrArg (fun scopes => scopes.put binding) same.scopes
  returns := same.returns
  indent := same.indent
  diagnostics := same.diagnostics
  helpers := same.helpers

/-- A report is seen behind every step that only adds diagnostics. -/
theorem Kind.Moves.reported {cause : Cause} (same : SamePlace (before.report cause line) after) :
    kind.Moves before after :=
  .refused (IsTrans.trans _ _ _ (before.samePlace_report cause line) same)
    (Context.reported_not_quiet same.diagnostics)

theorem checkVariableType_cases (type : Ty) (line : Nat) (before : Context) :
    checkVariableType type line before = (some (), before) ∨
      ∃ cause, checkVariableType type line before = (none, before.report cause line) := by
  unfold checkVariableType
  split_ifs
  · exact .inr ⟨_, rfl⟩
  · rcases type.checkNames with cause | _
    · exact .inr ⟨cause, rfl⟩
    · exact .inl rfl

theorem Gen.expect_run (check : Except Cause Unit) (line : Nat) (before : Context) :
    ∃ after, Gen.expect check line before = (some (), after) ∧ SamePlace before after := by
  cases check with
  | ok => exact ⟨before, rfl, refl before⟩
  | error cause => exact ⟨_, rfl, before.samePlace_report cause line⟩

theorem generateDeclaration_moves {type : Ty} {constant : Bool} {tokens : List Token}
    {value : Gen Value} (keeps : Gen.Keeps SamePlace value) (before : Context) :
    (Kind.declare name type tokens constant).Moves before
      (generateDeclaration name type value constant line before).2 := by
  rcases checkVariableType_cases type line before with passed | ⟨cause, failed⟩
  · simp only [generateDeclaration, bind, Gen.andThen, Gen.context, passed]
    -- The value keeps the place, so the name is as free behind it as it was in front.
    cases taken : before.isTaken name with
    | true =>
      have same := keeps (before.report (.alreadyDeclared name) line)
      simp only [if_true, Bool.not_true, Bool.false_eq_true, if_false, Gen.andThen, Gen.attempt,
        Gen.report, Gen.change]
      rcases outcome : value (before.report (.alreadyDeclared name) line) with ⟨_ | made, middle⟩
      · rw [outcome] at same
        exact .reported same
      · rw [outcome] at same
        obtain ⟨checked, run, noted⟩ :=
          Gen.expect_run (Ty.checkAssignment type made.type) line middle
        simp only [Gen.andThen, run]
        exact .reported (IsTrans.trans _ _ _ same noted)
    | false =>
      have same := keeps before
      simp only [Bool.false_eq_true, if_false, Bool.not_false, if_true, Gen.andThen, Gen.attempt]
      rcases outcome : value before with ⟨_ | made, middle⟩
      · rw [outcome] at same
        exact .declares taken (same.declare _)
      · rw [outcome] at same
        obtain ⟨checked, run, noted⟩ :=
          Gen.expect_run (Ty.checkAssignment type made.type) line middle
        simp only [Gen.andThen, run]
        exact .declares taken ((IsTrans.trans _ _ _ same noted).declare _)
  · simp only [generateDeclaration, bind, Gen.andThen, failed]
    exact .reported (refl _)

theorem reachFunction_cases (name : String) (before : Context) :
    reachFunction name before = (some (), before) ∨
      ∃ binding, binding.name ∈ before.scopes.current.names ∧
        reachFunction name before = (some (), before.declare binding) := by
  unfold reachFunction Gen.change
  dsimp only
  split
  · rename_i found
    refine .inr ⟨_, ?_, rfl⟩
    exact List.mem_map.mpr ⟨_, List.mem_of_find?_eq_some found, rfl⟩
  · exact .inl rfl

theorem checkReturnType_run (returns : Ty) (line : Nat) (before : Context) :
    ∃ after, checkReturnType returns line before = (some (), after) ∧ SamePlace before after := by
  unfold checkReturnType
  split_ifs
  · exact ⟨_, rfl, before.samePlace_report _ line⟩
  · exact Gen.expect_run _ line before

theorem generateFunction_run (toplevel : Bool) (line : Nat) (name : String) (params : List Param)
    (returns : Ty) (body : List Stmt) (before : Context) :
    ∃ checked, SamePlace before checked ∧ SamePlace (reachFunction name checked).2
      (generateKind toplevel line (.function name params returns body) before).2 := by
  obtain ⟨checked, run, same⟩ := checkReturnType_run returns line before
  refine ⟨checked, same, ?_⟩
  have inner : Gen.Keeps SamePlace (functionBody params returns line (do
      hoist body
      generateStatements false body)) :=
    functionBody_keeps (level_keeps (generateStatements_keeps body))
  rw [generateKind]
  simp only [bind, Gen.andThen, run]
  exact Gen.Keeps.bind inner (fun _ => .pure) _

/-- Every statement moves on in one of these ways. -/
theorem generateKind_moves (toplevel : Bool) (line : Nat) (kind : Kind) (before : Context) :
    kind.Moves before (generateKind toplevel line kind before).2 := by
  cases kind with
  | declare name type value constant =>
    rw [generateKind]
    exact generateDeclaration_moves (generateExpression_keeps line (.wanted none []) value) before
  | modify base steps op value =>
    rw [generateKind]
    exact .stays rfl (generateModification_keeps
      (resolveWith_keeps fun taken start => generateSteps_keeps line false taken start steps)
      (generateExpression_keeps line (.wanted none []) value) before)
  | expression tokens =>
    rw [generateKind]
    exact .stays rfl (Gen.Keeps.bind (generateExpression_keeps line (.wanted none []) tokens)
      (fun _ => .pure) before)
  | call base steps arguments =>
    rw [generateKind]
    exact .stays rfl (Gen.Keeps.bind (generateCall_keeps (generateArguments_keeps line arguments)
      (callTarget_keeps fun beforeLast taken start =>
        generateSteps_keeps line beforeLast taken start steps)) (fun _ => .pure) before)
  | function name params returns body =>
    obtain ⟨checked, same, rest⟩ :=
      generateFunction_run toplevel line name params returns body before
    rcases reachFunction_cases name checked with stays | ⟨binding, present, declares⟩
    · rw [stays] at rest
      exact .stays rfl (IsTrans.trans _ _ _ same rest)
    · rw [declares] at rest
      rw [same.scopes] at present
      exact .reaches present (IsTrans.trans _ _ _ (same.declare binding) rest)
  | branch condition body otherwise =>
    rw [generateKind]
    exact .stays rfl (Gen.Keeps.bind (generateCondition_keeps
        (generateExpression_keeps line (.wanted none []) condition)) (fun _ =>
      .bind (level_keeps (generateStatements_keeps body)).inBlock fun _ =>
        .bind (generateOtherwise_keeps line otherwise) fun _ => .pure) before)
  | loop condition body =>
    rw [generateKind]
    exact .stays rfl (Gen.Keeps.bind (generateCondition_keeps
        (generateExpression_keeps line (.wanted none []) condition)) (fun _ =>
      .bind (level_keeps (generateStatements_keeps body)).inBlock fun _ => .pure) before)
  | imports path =>
    rw [generateImport_run]
    rcases generateImport_cases path toplevel line before with
      ⟨module, -, loaded, path_new, unnamed, undeclared, added⟩ | ⟨cause, reported, -⟩
    · rw [added]
      exact .imports loaded path_new unnamed undeclared
    · rw [reported]
      exact .reported (refl _)
  | returns value =>
    cases value with
    | none =>
      rw [generateKind]
      exact .stays rfl (generateReturn_keeps before)
    | some tokens =>
      rw [generateKind]
      exact .stays rfl (generateReturnOf_keeps
        (generateExpression_keeps line (.wanted none []) tokens) before)

/-! ### Blocks -/

theorem hoist_consistent (block : List Stmt) : Gen.Keeps StaysConsistent (hoist block) := by
  induction block with
  | nil => exact .pure
  | cons stmt rest ih =>
    intro before consistent
    rcases hoist_cons_cases stmt rest before with
      ⟨-, run⟩ | ⟨cause, line, run⟩ | ⟨binding, -, free, run⟩
    · rw [run]
      exact ih before consistent
    · rw [run]
      exact ih _ (consistent.samePlace (before.samePlace_report cause line))
    · rw [run]
      exact ih _ (consistent.declare_free free)

theorem generateStatement_consistent (toplevel : Bool) (stmt : Stmt) :
    Gen.Keeps StaysConsistent (generateStatement toplevel stmt) := by
  obtain ⟨line, kind⟩ := stmt
  intro before
  rw [generateStatement]
  exact (generateKind_moves toplevel line kind before).consistent

theorem generateStatements_consistent (toplevel : Bool) (block : List Stmt) :
    Gen.Keeps StaysConsistent (generateStatements toplevel block) := by
  induction block with
  | nil =>
    rw [generateStatements]
    exact .pure
  | cons stmt rest ih =>
    rw [generateStatements]
    exact .bind (generateStatement_consistent toplevel stmt).attempt fun _ =>
      .bind ih fun _ => .pure

theorem generateLevel_consistent (toplevel : Bool) (block : List Stmt) :
    Gen.Keeps StaysConsistent (generateLevel toplevel block) :=
  .bind (hoist_consistent block) fun _ => generateStatements_consistent toplevel block

theorem declareAll_consistent (line : Nat) (bindings : List Binding)
    (consistent : before.Consistent) (inside : before.scopes.inner ≠ []) :
    (Gen.declareAll line bindings before).2.Consistent ∧
      (Gen.declareAll line bindings before).2.scopes.inner ≠ [] := by
  induction bindings generalizing before with
  | nil => exact ⟨consistent, inside⟩
  | cons binding rest ih =>
    obtain ⟨noted, same, -, run⟩ := declareAll_cons line binding rest before
    have inner : noted.scopes.inner ≠ [] := same.scopes ▸ inside
    rw [run]
    refine ih ((consistent.samePlace same).declare fun only => absurd only inner) ?_
    exact fun only => inner (Scopes.inner_put.mp only)

end TypedScript
