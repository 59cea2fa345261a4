/-
**Generation restores its surroundings.** Blocks, functions and lambdas are entered and left on many
paths, most of which can fail on the way. Whatever happens inside them, an expression leaves the
frames, the enclosing functions and the imports as they were, and a statement changes nothing but
the innermost frame, to which it only adds names. The one exception is an import of the outermost
block, which adds a module.

* `generateExpression_keeps`, `generateKind_keeps`: expressions and statements.
-/

import TypedScript.Proofs.Generation.Keeping

namespace TypedScript

/-! ### Frames -/

/-- The names of a frame. -/
def Frame.names (frame : Frame) : List String :=
  frame.bindings.map Binding.name

theorem Frame.find?_isSome (frame : Frame) (name : String) :
    (frame.find? name).isSome = true ↔ name ∈ frame.names := by
  unfold Frame.find? Frame.names
  rw [List.find?_isSome, List.mem_map]
  simp only [beq_iff_eq]

theorem Frame.names_put (frame : Frame) (binding : Binding) :
    (frame.put binding).names =
      if binding.name ∈ frame.names then frame.names else frame.names ++ [binding.name] := by
  obtain ⟨bindings⟩ := frame
  unfold Frame.put Frame.names
  induction bindings with
  | nil => simp [Frame.putIn]
  | cons other rest ih =>
    by_cases same : other.name = binding.name
    · simp [Frame.putIn, same]
    · have kept : binding.name ≠ other.name := fun equal => same equal.symm
      simp only [Frame.putIn, same, if_false, List.map_cons, List.mem_cons, kept, false_or] at ih ⊢
      rw [ih]
      split_ifs <;> rfl

theorem Frame.names_prefix_put (frame : Frame) (binding : Binding) :
    frame.names <+: (frame.put binding).names := by
  rw [Frame.names_put]
  split_ifs
  · exact List.prefix_rfl
  · exact List.prefix_append _ _

namespace Scopes

variable {scopes : Scopes}

theorem frames_eq_cons (scopes : Scopes) : scopes.frames = scopes.current :: scopes.frames.tail := by
  obtain ⟨_ | ⟨frame, outer⟩, outermost⟩ := scopes <;> rfl

theorem length_frames (scopes : Scopes) : scopes.frames.length = scopes.depth := by
  unfold frames depth
  rw [List.length_append, List.length_singleton]

theorem frames_injective {scopes' : Scopes} (same : scopes.frames = scopes'.frames) :
    scopes = scopes' := by
  obtain ⟨inner, outermost⟩ := scopes
  obtain ⟨inner', outermost'⟩ := scopes'
  obtain ⟨rfl, last⟩ := List.append_inj' same rfl
  obtain rfl := List.singleton_inj.mp last
  rfl

/-- Declaring a name changes the innermost frame alone. -/
theorem frames_put (scopes : Scopes) (binding : Binding) :
    (scopes.put binding).frames = scopes.current.put binding :: scopes.frames.tail := by
  obtain ⟨_ | ⟨frame, outer⟩, outermost⟩ := scopes <;> rfl

theorem current_put (scopes : Scopes) (binding : Binding) :
    (scopes.put binding).current = scopes.current.put binding := by
  obtain ⟨_ | ⟨frame, outer⟩, outermost⟩ := scopes <;> rfl

theorem pop_eq_of_tail {outer : Scopes} (kept : scopes.frames.tail = outer.frames) :
    scopes.pop = outer := by
  obtain ⟨_ | ⟨frame, inner⟩, outermost⟩ := scopes
  · rw [frames_eq_cons outer] at kept
    contradiction
  · exact frames_injective kept

end Scopes

/-! ### Places -/

namespace Context

/-- The same place of a script: at most diagnostics and helpers were added. -/
structure SamePlace (before after : Context) : Prop where
  load : after.load = before.load
  imports : after.imports = before.imports
  scopes : after.scopes = before.scopes
  returns : after.returns = before.returns
  indent : after.indent = before.indent
  diagnostics : before.diagnostics <+: after.diagnostics
  helpers : before.helpers ⊆ after.helpers

/-- The same or a later place of the same block, whose frame may have got further names. -/
structure SameBlock (before after : Context) : Prop where
  load : after.load = before.load
  imports : after.imports = before.imports
  outer : after.scopes.frames.tail = before.scopes.frames.tail
  names : before.scopes.current.names <+: after.scopes.current.names
  returns : after.returns = before.returns
  indent : after.indent = before.indent
  diagnostics : before.diagnostics <+: after.diagnostics
  helpers : before.helpers ⊆ after.helpers

/-- Places whose lines are indented alike. -/
def SameIndent (before after : Context) : Prop :=
  after.indent = before.indent

instance : IsPreorder Context SameIndent where
  refl _ := rfl
  trans _ _ _ first second := second.trans first

instance : IsPreorder Context SamePlace where
  refl _ := ⟨rfl, rfl, rfl, rfl, rfl, List.prefix_rfl, List.Subset.refl _⟩
  trans _ _ _ first second :=
    ⟨second.load.trans first.load, second.imports.trans first.imports,
      second.scopes.trans first.scopes, second.returns.trans first.returns,
      second.indent.trans first.indent, first.diagnostics.trans second.diagnostics,
      List.Subset.trans first.helpers second.helpers⟩

instance : IsPreorder Context SameBlock where
  refl _ := ⟨rfl, rfl, rfl, List.prefix_rfl, rfl, rfl, List.prefix_rfl, List.Subset.refl _⟩
  trans _ _ _ first second :=
    ⟨second.load.trans first.load, second.imports.trans first.imports,
      second.outer.trans first.outer, first.names.trans second.names,
      second.returns.trans first.returns, second.indent.trans first.indent,
      first.diagnostics.trans second.diagnostics, List.Subset.trans first.helpers second.helpers⟩

theorem SamePlace.sameBlock {before after : Context} (same : SamePlace before after) :
    SameBlock before after where
  load := same.load
  imports := same.imports
  outer := by rw [same.scopes]
  names := same.scopes ▸ List.prefix_rfl
  returns := same.returns
  indent := same.indent
  diagnostics := same.diagnostics
  helpers := same.helpers

theorem samePlace_report (context : Context) (cause : Cause) (line : Nat) :
    SamePlace context (context.report cause line) :=
  ⟨rfl, rfl, rfl, rfl, rfl, List.prefix_append _ _, List.Subset.refl _⟩

theorem samePlace_use (context : Context) (helper : Helper) :
    SamePlace context (context.use helper) := by
  unfold use
  split_ifs
  · exact refl context
  · exact ⟨rfl, rfl, rfl, rfl, rfl, List.prefix_rfl, List.subset_cons_self _ _⟩

theorem mem_helpers_use {context : Context} {helper other : Helper} :
    other ∈ (context.use helper).helpers ↔ other ∈ context.helpers ∨ other = helper := by
  unfold use
  split_ifs with known
  · rw [List.contains_iff_mem] at known
    exact ⟨.inl, fun found => found.elim id fun same => same ▸ known⟩
  · exact List.mem_cons.trans or_comm

theorem sameBlock_declare (context : Context) (binding : Binding) :
    SameBlock context (context.declare binding) where
  load := rfl
  imports := rfl
  outer := by
    show (context.scopes.put binding).frames.tail = _
    rw [Scopes.frames_put, List.tail_cons]
  names := by
    show _ <+: (context.scopes.put binding).current.names
    rw [Scopes.current_put]
    exact Frame.names_prefix_put _ _
  returns := rfl
  indent := rfl
  diagnostics := List.prefix_rfl
  helpers := List.Subset.refl _

/-- **Leaving a block that was stayed in** leads back to the same place. -/
theorem SameBlock.leave {before after : Context} (inside : SameBlock before.enterBlock after) :
    SamePlace before after.leaveBlock where
  load := inside.load
  imports := inside.imports
  scopes := Scopes.pop_eq_of_tail inside.outer
  returns := inside.returns
  indent := congrArg (· - 1) inside.indent
  diagnostics := inside.diagnostics
  helpers := inside.helpers

theorem SamePlace.leaveFunction {before after : Context} {returns : Ty}
    (inside : SamePlace (before.enterFunction returns) after) :
    SamePlace before after.leaveFunction where
  load := inside.load
  imports := inside.imports
  scopes := inside.scopes
  returns := congrArg List.tail inside.returns
  indent := inside.indent
  diagnostics := inside.diagnostics
  helpers := inside.helpers

instance (line : Nat) : Tolerates SamePlace False line where
  report context cause _ := context.samePlace_report cause line

instance (line : Nat) : Tolerates SameBlock False line where
  report context cause _ := (context.samePlace_report cause line).sameBlock

instance : Declares SameBlock where
  declare := sameBlock_declare

instance : Frames SamePlace SameBlock where
  widen := SamePlace.sameBlock
  use := samePlace_use
  leaveBlock := SameBlock.leave
  leaveFunction := SamePlace.leaveFunction

end Context

/-! ### Expressions and statements -/

section Steps

open Context (SamePlace SameBlock SameIndent)

variable {line : Nat} {block : List Stmt}

/-- Reports are respected on all lines. -/
theorem tolerated_samePlace (spots : List Spot) : Tolerated SamePlace False spots :=
  fun _ _ => inferInstance

theorem generateValue_keeps (line : Nat) (token : Token) :
    Gen.Keeps SamePlace (generateValue line token) :=
  .value token (tolerated_samePlace _) False.elim False.elim

theorem generateExpression_keeps (line : Nat) (before : Operand) (tokens : List Token) :
    Gen.Keeps SamePlace (generateExpression line before tokens) :=
  .expression before tokens (tolerated_samePlace _) False.elim False.elim

theorem generateStep_keeps (line : Nat) (receiver : Value) (step : Step) :
    Gen.Keeps SamePlace (generateStep line receiver step) :=
  .step receiver step (tolerated_samePlace _) False.elim

theorem generateSteps_keeps (line : Nat) (beforeLast : Bool) (taken : Nat) (receiver : Value)
    (steps : List Step) :
    Gen.Keeps SamePlace (generateSteps line beforeLast taken receiver steps) :=
  .steps beforeLast taken receiver steps (tolerated_samePlace _) False.elim

theorem generateArguments_keeps (line : Nat) (arguments : List (List Token)) :
    Gen.Keeps SamePlace (generateArguments line arguments) :=
  .arguments arguments (tolerated_samePlace _) False.elim

theorem generateKind_keeps (toplevel : Bool) (line : Nat) (kind : Kind)
    (nested : toplevel = true → kind.isImport = false) :
    Gen.Keeps SameBlock (generateKind toplevel line kind) := by
  refine .kind toplevel kind (tolerated_samePlace _) False.elim fun outermost path imports => ?_
  rw [imports] at nested
  exact absurd (nested outermost) Bool.noConfusion

theorem generateOtherwise_keeps (line : Nat) (otherwise : Otherwise) :
    Gen.Keeps SamePlace (generateOtherwise line otherwise) :=
  .otherwise otherwise (tolerated_samePlace _) False.elim

theorem generateStatements_keeps (block : List Stmt) :
    Gen.Keeps SameBlock (generateStatements false block) :=
  .statements false block (tolerated_samePlace _) False.elim (absurd · Bool.false_ne_true)

theorem hoist_keeps : Gen.Keeps SameBlock (hoist block) :=
  .hoist (tolerated_samePlace _)

theorem level_keeps {step : Gen (List Target.Stmt)} (keeps : Gen.Keeps SameBlock step) :
    Gen.Keeps SameBlock (do hoist block; step) :=
  .bind hoist_keeps fun _ => keeps

/-- **An import adds its module or reports one cause**, and does nothing else. -/
theorem generateImport_cases (path : String) (toplevel : Bool) (line : Nat) (before : Context) :
    (∃ module, toplevel = true ∧ before.load path = .ok module ∧
      (∀ other ∈ before.imports, other.path ≠ path) ∧ before.module? module.name = none ∧
      before.scopes.lookup? module.name = none ∧
      (generateImport path toplevel line before).2 =
        { before with imports := before.imports ++ [module] }) ∨
    ∃ cause, (generateImport path toplevel line before).2 = before.report cause line ∧
      (cause.IsRegular ∨ before.load path = .error cause) := by
  cases toplevel with
  | false => exact .inr ⟨_, rfl, .inl trivial⟩
  | true =>
    unfold generateImport
    simp only [bind, Gen.andThen, Gen.context, Bool.not_true, Bool.false_eq_true, if_false]
    split_ifs with known
    · exact .inr ⟨_, rfl, .inl trivial⟩
    · rcases loaded : before.load path with cause | module
      · exact .inr ⟨cause, rfl, .inr rfl⟩
      · dsimp only
        split_ifs with named
        · exact .inr ⟨_, rfl, .inl trivial⟩
        · rw [Bool.not_eq_true, Bool.or_eq_false_iff, Option.isSome_eq_false_iff,
            Option.isSome_eq_false_iff, Option.isNone_iff_eq_none, Option.isNone_iff_eq_none]
            at named
          refine .inl ⟨module, trivial, rfl, fun other member same => known ?_, named.1, named.2, rfl⟩
          exact List.any_eq_true.mpr ⟨other, member, beq_iff_eq.mpr same⟩

theorem generateImport_adds (path : String) (before : Context) :
    SamePlace before (generateImport path true line before).2 ∨
      ∃ module, before.load path = .ok module ∧
        (generateImport path true line before).2 =
          { before with imports := before.imports ++ [module] } := by
  rcases generateImport_cases path true line before with
    ⟨module, -, loaded, -, -, -, added⟩ | ⟨cause, reported, -⟩
  · exact .inr ⟨module, loaded, added⟩
  · rw [reported]
    exact .inl (before.samePlace_report cause line)

theorem generateStatement_keeps (toplevel : Bool) (stmt : Stmt) (before : Context) :
    SameBlock before (generateStatement toplevel stmt before).2 ∨
      toplevel = true ∧ ∃ path module, stmt.kind = .imports path ∧ before.load path = .ok module ∧
        (generateStatement toplevel stmt before).2 =
          { before with imports := before.imports ++ [module] } := by
  obtain ⟨line, kind⟩ := stmt
  rw [generateStatement]
  by_cases imports : toplevel = true ∧ kind.isImport = true
  · obtain ⟨rfl, isImport⟩ := imports
    obtain ⟨path, rfl⟩ : ∃ path, kind = .imports path := by
      cases kind <;> first | exact ⟨_, rfl⟩ | contradiction
    have run : (generateKind true line (.imports path) before).2 =
        (generateImport path true line before).2 := by
      rw [generateKind]
      show (Gen.andThen _ _ before).2 = _
      unfold Gen.andThen
      rcases generateImport path true line before with ⟨_ | _, after⟩ <;> rfl
    rw [run]
    rcases generateImport_adds path before with same | ⟨module, loaded, added⟩
    · exact .inl same.sameBlock
    · exact .inr ⟨rfl, path, module, rfl, loaded, added⟩
  · refine .inl (generateKind_keeps toplevel line kind (fun outermost => ?_) before)
    exact eq_false_of_ne_true fun isImport => imports ⟨outermost, isImport⟩

theorem generateStatement_indent (toplevel : Bool) (stmt : Stmt) :
    Gen.Keeps SameIndent (generateStatement toplevel stmt) := by
  intro before
  rcases generateStatement_keeps toplevel stmt before with same | ⟨-, _, _, -, -, added⟩
  · exact same.indent
  · unfold SameIndent
    rw [added]

/-- **The indentation is restored** behind the statements of a block, whether it is that of the whole
script, in which imports may stand, or not. -/
theorem generateLevel_indent (toplevel : Bool) (body : List Stmt) (before : Context) :
    (generateLevel toplevel body before).2.indent = before.indent := by
  have statements : Gen.Keeps SameIndent (generateStatements toplevel body) := by
    induction body with
    | nil =>
      rw [generateStatements]
      exact .pure
    | cons stmt rest ih =>
      rw [generateStatements]
      exact .bind (generateStatement_indent toplevel stmt).attempt fun _ => .bind ih fun _ => .pure
  have hoisted : Gen.Keeps SameIndent (hoist body) := fun before => (hoist_keeps before).indent
  exact Gen.Keeps.bind hoisted (fun _ => statements) before

/-- The lines of a program are indented one step. -/
theorem indent_of_run {load : String → Except Cause Module} {script : List Stmt}
    {body? : Option (List Target.Stmt)} {last : Context}
    (run : generateLevel true script (.start load) = (body?, last)) : last.indent = 1 := by
  have restored := generateLevel_indent true script (.start load)
  rwa [run] at restored

end Steps

/-- **Surroundings are restored.** Behind any statement, in any context and whether the statement is
accepted or not, there are as many frames as before, those below the innermost one are the same, and
so are the enclosing functions and the indentation; the innermost frame keeps its names, diagnostics
are added only at the end, helpers are only added, and the imports are the same or, behind an import
of the outermost block, longer by the module that it loads. Behind any expression, whatever lambdas
it has and wherever it fails, all frames, the functions, the indentation and the imports are the
same. -/
theorem surroundings_restored (before : Context) :
    (∀ toplevel stmt, ∃ after, (generateStatement toplevel stmt before).2 = after ∧
      after.scopes.depth = before.scopes.depth ∧
      after.scopes.frames.tail = before.scopes.frames.tail ∧
      before.scopes.current.names <+: after.scopes.current.names ∧
      after.returns = before.returns ∧
      after.indent = before.indent ∧
      before.diagnostics <+: after.diagnostics ∧
      before.helpers ⊆ after.helpers ∧
      (after.imports = before.imports ∨
        toplevel = true ∧ ∃ path module, stmt.kind = .imports path ∧
          before.load path = .ok module ∧ after.imports = before.imports ++ [module])) ∧
    (∀ tokens line, ∃ after, (generateTokens tokens line before).2 = after ∧
      after.scopes = before.scopes ∧
      after.returns = before.returns ∧
      after.indent = before.indent ∧
      after.imports = before.imports ∧
      before.diagnostics <+: after.diagnostics ∧
      before.helpers ⊆ after.helpers) := by
  constructor
  · intro toplevel stmt
    refine ⟨_, rfl, ?_⟩
    rcases generateStatement_keeps toplevel stmt before with
      same | ⟨outermost, path, module, imports, loaded, added⟩
    · have depth : (generateStatement toplevel stmt before).2.scopes.depth = before.scopes.depth := by
        rw [← Scopes.length_frames, ← Scopes.length_frames, Scopes.frames_eq_cons, same.outer,
          Scopes.frames_eq_cons before.scopes, List.tail_cons]
        rfl
      exact ⟨depth, same.outer, same.names, same.returns, same.indent, same.diagnostics,
        same.helpers, .inl same.imports⟩
    · rw [added]
      exact ⟨rfl, rfl, List.prefix_rfl, rfl, rfl, List.prefix_rfl, List.Subset.refl _,
        .inr ⟨outermost, path, module, imports, loaded, rfl⟩⟩
  · intro tokens line
    refine ⟨_, rfl, ?_⟩
    have same := generateExpression_keeps line (.wanted none []) tokens before
    exact ⟨same.scopes, same.returns, same.indent, same.imports, same.diagnostics, same.helpers⟩

end TypedScript
