/-
**What frames know.** The frame of a block gets its parameters and functions when the block is
entered, and each variable behind the statement that declares it. So at every statement it knows
what the block of the program declares, but for the variables of that statement and of later ones.
-/

import TypedScript.Proofs.Scoping.References

namespace TypedScript

variable {before after inside place : Context} {α : Type} {step : Gen α} {code : List Target.Stmt}
  {block body : List Stmt} {params : List String} {trail : List Surrounding}

/-! ### Runs -/

theorem Context.quiet_between {between : Context}
    (first : before.diagnostics <+: between.diagnostics)
    (second : between.diagnostics <+: after.diagnostics)
    (quiet : after.diagnostics = before.diagnostics) :
    between.diagnostics = before.diagnostics := by
  rw [quiet] at second
  exact second.eq_of_length_le first.length_le

theorem Context.reported_not_quiet {cause : Cause} {line : Nat}
    (grown : (before.report cause line).diagnostics <+: after.diagnostics) :
    after.diagnostics ≠ before.diagnostics := by
  intro quiet
  have longer : (before.diagnostics ++ [Diagnostic.mk cause line]).length ≤ _ := grown.length_le
  rw [quiet, List.length_append] at longer
  exact Nat.not_succ_le_self _ longer

theorem Gen.bind_eq_some {β : Type} {next : α → Gen β} {value : β}
    (run : (step >>= next) before = (some value, after)) :
    ∃ first middle,
      step before = (some first, middle) ∧ next first middle = (some value, after) := by
  have opened : (step >>= next) before = step.andThen next before := rfl
  rw [opened, andThen] at run
  rcases outcome : step before with ⟨_ | first, middle⟩
  · rw [outcome] at run
    cases show (none, middle) = (some value, after) from run
  · rw [outcome] at run
    exact ⟨first, middle, rfl, run⟩

theorem Gen.attempt_eq_some {value? : Option α}
    (run : step.attempt before = (some value?, after)) : step before = (value?, after) := by
  unfold attempt at run
  rcases outcome : step before with ⟨result?, middle⟩
  rw [outcome] at run
  cases run
  rfl

/-! ### Functions of a block -/

/-- The function that a statement declares. -/
def Kind.function? : Kind → Option String
  | .function name _ _ _ => some name
  | _ => none

def hoistedNames (block : List Stmt) : List String :=
  block.filterMap fun stmt => stmt.kind.function?

theorem hoistedNames_cons (stmt : Stmt) (rest : List Stmt) :
    hoistedNames (stmt :: rest) = stmt.kind.function?.toList ++ hoistedNames rest := by
  unfold hoistedNames
  rw [List.filterMap_cons]
  cases stmt.kind.function? <;> rfl

theorem KindCode.function? {kind : Kind} {code : Target.Stmt} (emitted : KindCode kind code) :
    code.function? = kind.function? := by
  cases emitted with
  | modify taken inner =>
    unfold assignmentCode
    split <;> rfl
  | _ => rfl

/-- What is read off the statements of a program can be read off those of its block. -/
theorem BlockCode.filterMap_eq (emitted : BlockCode block code)
    {made : Target.Stmt → Option String} {written : Kind → Option String}
    (same : ∀ {kind code}, KindCode kind code → made code = written kind)
    (imports : ∀ path, written (.imports path) = none) :
    code.filterMap made = block.filterMap fun stmt => written stmt.kind := by
  obtain ⟨statements⟩ := emitted
  have coded : (codedKinds block).filterMap written =
      block.filterMap fun stmt => written stmt.kind := by
    unfold codedKinds
    rw [List.filterMap_filter, List.filterMap_map]
    refine List.filterMap_congr fun stmt _ => ?_
    obtain ⟨line, kind⟩ := stmt
    cases kind with
    | imports path => exact (imports path).symm
    | _ => rfl
  rw [← coded]
  generalize codedKinds block = kinds at statements
  induction statements with
  | nil => rfl
  | cons one _ ih => rw [List.filterMap_cons, List.filterMap_cons, same one, ih]

theorem BlockCode.declaredFunctions (emitted : BlockCode block code) :
    Target.declaredFunctions code = hoistedNames block :=
  emitted.filterMap_eq KindCode.function? fun _ => rfl

/-! ### Entering a block -/

section Entering

variable {name : String}

theorem Context.mem_names_declare (context : Context) (binding : Binding) :
    name ∈ (context.declare binding).scopes.current.names ↔
      name ∈ context.scopes.current.names ∨ name = binding.name := by
  show name ∈ (context.scopes.put binding).current.names ↔ _
  rw [Scopes.current_put, Frame.names_put]
  split_ifs with present
  · exact ⟨.inl, fun known => known.elim id fun same => same ▸ present⟩
  · rw [List.mem_append, List.mem_singleton]

theorem declareAll_cons (line : Nat) (binding : Binding) (rest : List Binding) (before : Context) :
    ∃ noted : Context, before.SamePlace noted ∧ noted.helpers = before.helpers ∧
      Gen.declareAll line (binding :: rest) before =
        Gen.declareAll line rest (noted.declare binding) := by
  by_cases taken : (before.scopes.lookupCurrent? binding.name).isSome = true
  · refine ⟨before.report (.alreadyDeclared binding.name) line, before.samePlace_report _ line,
      rfl, ?_⟩
    simp only [Gen.declareAll, bind, Gen.andThen, Gen.context, taken, if_true]
    rfl
  · refine ⟨before, refl before, rfl, ?_⟩
    simp only [Gen.declareAll, bind, Gen.andThen, Gen.context, taken]
    rfl

theorem declareAll_names (line : Nat) (bindings : List Binding) (before : Context) :
    name ∈ (Gen.declareAll line bindings before).2.scopes.current.names ↔
      name ∈ before.scopes.current.names ∨ name ∈ bindings.map Binding.name := by
  induction bindings generalizing before with
  | nil => exact ⟨.inl, fun known => known.elim id nofun⟩
  | cons binding rest ih =>
    obtain ⟨noted, same, -, run⟩ := declareAll_cons line binding rest before
    rw [run, ih, Context.mem_names_declare, same.scopes, List.map_cons, List.mem_cons, or_assoc]

theorem declareAll_run (line : Nat) (bindings : List Binding) (before : Context) :
    ∃ declared, Gen.declareAll line bindings before = (some (), declared) ∧
      declared.helpers = before.helpers := by
  induction bindings generalizing before with
  | nil => exact ⟨before, rfl, rfl⟩
  | cons binding rest ih =>
    obtain ⟨noted, -, same, run⟩ := declareAll_cons line binding rest before
    obtain ⟨declared, result, helpers⟩ := ih (noted.declare binding)
    exact ⟨declared, run.trans result, helpers.trans same⟩

theorem hoist_cons_other {stmt : Stmt} (other : stmt.kind.function? = none) (rest : List Stmt) :
    hoist (stmt :: rest) = hoist rest := by
  obtain ⟨line, kind⟩ := stmt
  cases kind with
  | function => contradiction
  | _ => rw [hoist]; nofun

/-- A function is declared ahead, unless its name is taken. -/
theorem hoist_cons_cases (stmt : Stmt) (rest : List Stmt) (before : Context) :
    (stmt.kind.function? = none ∧ hoist (stmt :: rest) before = hoist rest before) ∨
    (∃ cause line, hoist (stmt :: rest) before = hoist rest (before.report cause line)) ∨
    ∃ binding, stmt.kind.function? = some binding.name ∧ before.isTaken binding.name = false ∧
      hoist (stmt :: rest) before = hoist rest (before.declare binding) := by
  cases declared : stmt.kind.function? with
  | none => exact .inl ⟨rfl, by rw [hoist_cons_other declared]⟩
  | some function =>
    obtain ⟨line, kind⟩ := stmt
    cases kind with
    | function name params returns body =>
      obtain rfl := Option.some.inj declared
      refine .inr ?_
      simp only [hoist, bind, Gen.andThen, Gen.context]
      cases taken : before.isTaken name with
      | true => exact .inl ⟨_, _, rfl⟩
      | false =>
        exact .inr ⟨⟨name, .function params returns (awaits body) true, true⟩, rfl, taken, rfl⟩
    | _ => contradiction

theorem hoist_run (block : List Stmt) (before : Context) :
    ∃ inside, hoist block before = (some (), inside) ∧ inside.helpers = before.helpers := by
  induction block generalizing before with
  | nil => exact ⟨before, rfl, rfl⟩
  | cons stmt rest ih =>
    rcases hoist_cons_cases stmt rest before with ⟨-, run⟩ | ⟨_, _, run⟩ | ⟨_, -, -, run⟩
    all_goals exact run ▸ ih _

/-- Entering a block declares all its functions, if nothing is reported. -/
theorem hoist_names (block : List Stmt) (before : Context)
    (quiet : (hoist block before).2.diagnostics = before.diagnostics) :
    name ∈ (hoist block before).2.scopes.current.names ↔
      name ∈ before.scopes.current.names ∨ name ∈ hoistedNames block := by
  induction block generalizing before with
  | nil => exact ⟨.inl, fun known => known.elim id nofun⟩
  | cons stmt rest ih =>
    rcases hoist_cons_cases stmt rest before with
      ⟨other, run⟩ | ⟨cause, line, run⟩ | ⟨binding, named, -, run⟩
    · rw [run] at quiet ⊢
      rw [ih _ quiet, hoistedNames_cons, other]
      rfl
    · have keeps : Gen.Keeps Context.SameBlock (hoist rest) := hoist_keeps
      have grown := (keeps (before.report cause line)).diagnostics
      rw [← run] at grown
      exact absurd quiet (Context.reported_not_quiet grown)
    · rw [run] at quiet ⊢
      rw [ih _ quiet, Context.mem_names_declare, or_assoc, hoistedNames_cons, named,
        ← List.mem_cons]
      rfl

/-- **Where the functions of a block are declared**, its frame knows them besides its parameters, and
nothing has changed around it. -/
theorem hoist_aligned (run : hoist body before = (some (), inside))
    (quiet : inside.diagnostics = before.diagnostics) (emitted : BlockCode body code)
    (bound : ∀ name, name ∈ before.scopes.current.names ↔ name ∈ params)
    (around : List.Forall₂ Tracks (before.scopes.frames.tail.map Frame.names) trail) :
    Aligned inside (⟨params, [], code⟩ :: trail) := by
  have keeps : Gen.Keeps Context.SameBlock (hoist body) := hoist_keeps
  have kept := keeps before
  rw [run] at kept
  unfold Aligned
  rw [Scopes.frames_eq_cons, List.map_cons, kept.outer]
  refine .cons (fun name => ?_) around
  have hoisted : name ∈ inside.scopes.current.names ↔ _ := run ▸
    hoist_names body before (by rw [run]; exact quiet)
  rw [hoisted, bound, ← emitted.declaredFunctions]
  simp [Surrounding.known, Target.declaredVariables]

/-- **Where a block is entered**, its frame knows its parameters and functions. -/
theorem Opens.aligned (opens : Opens place params body inside) (emitted : BlockCode body code)
    (aligned : Aligned place trail) :
    Aligned inside (⟨params, [], code⟩ :: trail) := by
  obtain ⟨outside, line, bindings, alike, rfl, run, quiet⟩ := opens
  obtain ⟨_, declared, declares, hoists⟩ := Gen.bind_eq_some run
  have first : Gen.Keeps Context.SameBlock (Gen.declareAll line bindings) := .declareAll
  have second : Gen.Keeps Context.SameBlock (hoist body) := hoist_keeps
  have kept := first outside.enterBlock
  have kept' := second declared
  rw [declares] at kept
  rw [hoists] at kept'
  have same : declared.diagnostics = outside.diagnostics :=
    Context.quiet_between kept.diagnostics kept'.diagnostics quiet
  refine hoist_aligned hoists (quiet.trans same.symm) emitted (fun name => ?_) ?_
  · have bound : name ∈ declared.scopes.current.names ↔ _ := declares ▸
      declareAll_names line bindings outside.enterBlock
    rw [bound, show outside.enterBlock.scopes.current.names = [] from rfl]
    simp
  · rw [kept.outer, show outside.enterBlock.scopes.frames.tail = outside.scopes.frames from rfl,
      alike.names]
    exact aligned

end Entering

/-! ### Passing a statement -/

/-- The innermost frame knows further names, and nothing has changed around it. -/
structure Context.Gains (place after : Context) (names : List String) : Prop where
  outer : after.scopes.frames.tail.map Frame.names = place.scopes.frames.tail.map Frame.names
  inner : ∀ name, name ∈ after.scopes.current.names ↔
    name ∈ place.scopes.current.names ∨ name ∈ names

theorem Context.Alike.gains (alike : place.Alike after) : place.Gains after [] := by
  have names := alike.names
  rw [Scopes.frames_eq_cons, Scopes.frames_eq_cons place.scopes, List.map_cons, List.map_cons]
    at names
  obtain ⟨current, outer⟩ := List.cons.inj names
  exact ⟨outer, fun name => by rw [current]; simp⟩

theorem Context.Alike.gains_declare (alike : place.Alike before) (binding : Binding) :
    place.Gains (before.declare binding) [binding.name] where
  outer := by
    rw [(before.sameBlock_declare binding).outer]
    exact alike.gains.outer
  inner name := by
    rw [Context.mem_names_declare, alike.gains.inner, List.mem_singleton]
    simp

/-- **Behind a statement**, the frame knows its variables too. -/
theorem Context.Gains.aligned {earlier others : List Target.Stmt} {outer : List Surrounding}
    (gains : place.Gains after (Target.declaredVariables code))
    (aligned : Aligned place (⟨params, earlier, code ++ others⟩ :: outer)) :
    Aligned after (⟨params, earlier ++ code, others⟩ :: outer) := by
  unfold Aligned at aligned ⊢
  rw [Scopes.frames_eq_cons, List.map_cons] at aligned ⊢
  obtain ⟨here, around⟩ := List.forall₂_cons.mp aligned
  refine .cons (fun name => ?_) (gains.outer ▸ around)
  rw [gains.inner, here]
  simp only [Surrounding.known, Target.declaredVariables_append, List.append_assoc, List.mem_append,
    or_assoc]

end TypedScript
