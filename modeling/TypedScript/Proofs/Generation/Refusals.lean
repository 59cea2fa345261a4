/-
**Refusals that no script meets.** Generation takes the tokens of an expression as they come and
refuses an expression without an operand where one is needed, two values side by side, and an
assignment. Expressions that were read are well-formed, so none of this is ever reported.
-/

import TypedScript.Compile
import TypedScript.Proofs.Generation.Restoration
import TypedScript.Proofs.Parsing.Commands

namespace TypedScript

/-! ### Regular contexts -/

/-- Only regular causes were reported, and imports add no others. -/
structure Context.IsRegular (context : Context) : Prop where
  load : ∀ path, FailsRegularly (context.load path)
  diagnostics : ∀ diagnostic ∈ context.diagnostics, diagnostic.cause.IsRegular

namespace Context

def StaysRegular (before after : Context) : Prop :=
  before.IsRegular → after.IsRegular

instance : IsPreorder Context StaysRegular where
  refl _ := id
  trans _ _ _ first second := second ∘ first

/-- What is reported is all that matters. -/
theorem staysRegular_of_eq {before after : Context} (load : after.load = before.load)
    (diagnostics : after.diagnostics = before.diagnostics) : StaysRegular before after :=
  fun regular => ⟨load ▸ regular.load, diagnostics ▸ regular.diagnostics⟩

theorem staysRegular_report (context : Context) {cause : Cause} {line : Nat}
    (regular : context.IsRegular → cause.IsRegular) :
    StaysRegular context (context.report cause line) := by
  intro before
  refine ⟨before.load, List.forall_mem_append.mpr ⟨before.diagnostics, ?_⟩⟩
  exact List.forall_mem_singleton.mpr (regular before)

instance (line : Nat) : Tolerates StaysRegular True line where
  report context _ regular := context.staysRegular_report fun _ => regular trivial

instance : Declares StaysRegular where
  declare _ _ := staysRegular_of_eq rfl rfl

instance : Frames StaysRegular StaysRegular where
  widen := id
  use context helper := by
    unfold use
    split
    · exact refl context
    · exact staysRegular_of_eq rfl rfl
  leaveBlock inside regular := by
    have last := inside ⟨regular.load, regular.diagnostics⟩
    exact ⟨last.load, last.diagnostics⟩
  leaveFunction inside regular := by
    have last := inside ⟨regular.load, regular.diagnostics⟩
    exact ⟨last.load, last.diagnostics⟩

end Context

section Statements

open Context (StaysRegular)

theorem generateImport_regular {path : String} {line : Nat} :
    Gen.Keeps StaysRegular (generateImport path true line) := by
  intro before
  rcases generateImport_cases path true line before with
    ⟨module, -, -, -, -, -, added⟩ | ⟨cause, reported, regular | refused⟩
  · rw [added]
    exact Context.staysRegular_of_eq rfl rfl
  · rw [reported]
    exact before.staysRegular_report fun _ => regular
  · rw [reported]
    exact before.staysRegular_report fun given => given.load path cause refused

/-- **Statements with sound parts** are refused for regular causes only. -/
theorem generateLevel_regular {script : List Stmt} (sound : Sound (bodyParts script)) :
    Gen.Keeps StaysRegular (generateLevel true script) := by
  have anywhere : Tolerated StaysRegular True (bodySpots script) := fun _ _ => inferInstance
  exact .level anywhere (.statements true script anywhere (fun _ => sound)
    fun _ _ _ _ => generateImport_regular)

end Statements

theorem checkProgram_regular {code : String} {diagnostic : Diagnostic}
    (refused : checkProgram code = .error diagnostic) : diagnostic.cause.IsRegular := by
  unfold checkProgram at refused
  split at refused
  · contradiction
  · cases refused
    trivial

theorem compile_regular {load : String → Except Cause Module} {script : List Stmt}
    (loads : ∀ path, FailsRegularly (load path)) (sound : Sound (bodyParts script)) (check : Bool) :
    ∀ diagnostic ∈ (compile load check script).diagnostics, diagnostic.cause.IsRegular := by
  have last := generateLevel_regular sound (.start load) ⟨loads, nofun⟩
  unfold compile
  dsimp only
  split
  · exact last.diagnostics
  · split
    · exact nofun
    · rename_i diagnostic refused
      refine List.forall_mem_singleton.mpr ?_
      split at refused
      · exact checkProgram_regular refused
      · contradiction

/-- **Expressions are well-formed.** Every expression of the statements that are read from a text, at
any depth and also if other statements cannot be read, is not empty, ends in a value, has no two
values side by side and no assignment, and awaits nothing but values that wait for no other. So
compiling a script that was read never reports that an expression ends too early, nor a value or an
assignment out of place, whatever is imported. -/
theorem expressions_well_formed (source : List Char) :
    (∀ statements, (readBody (Inner.within source) source 1).outcome = .ok statements →
      ∀ tokens, .expression tokens ∈ bodyParts statements → WellFormed tokens) ∧
    (∀ tokens, .expression tokens ∈ bodyParts (parse source).statements → WellFormed tokens) ∧
    ((parse source).diagnostics = [] → ∀ (options : Options) read check, ∀ diagnostic ∈
      (compile (options.load read) check (parse source).statements).diagnostics,
        diagnostic.cause ≠ .unexpectedEnd ∧ diagnostic.cause ≠ .unexpectedToken "value" ∧
          ∀ op : Operator, op.isAssignment = true →
            diagnostic.cause ≠ .unexpectedToken op.spelling) := by
  refine ⟨fun statements outcome tokens member => ?_, fun tokens member => ?_,
    fun _ options read check diagnostic reported => ?_⟩
  · exact readBody_gives (Inner.upTo_isSound _) source statements outcome _ member
  · exact parse_sound source _ member
  · exact (compile_regular (options.load_regular read) (parse_sound source) check diagnostic
      reported).exclusions

/-- A script whose second statement cannot be read, and one whose operators can be read but have no
operand between them. -/
theorem expressions_well_formed_operators :
    let broken := "f(1);* = 2;".toList
    let source := "int x = 1 + * 2;".toList
    let options : Options := ⟨"imports", none, true⟩
    let compiled := compile (options.load fun _ => .ok "") true (parse source).statements
    (∃ statements, (readBody (Inner.within broken) broken 1).outcome = .ok statements ∧
      ∃ tokens, .expression tokens ∈ bodyParts statements ∧ WellFormed tokens) ∧
    (∃ tokens, .expression tokens ∈ bodyParts (parse source).statements ∧ WellFormed tokens) ∧
    (parse source).diagnostics = [] ∧ compiled.diagnostics = [⟨.unexpectedToken "*", 1⟩] ∧
      ∀ diagnostic ∈ compiled.diagnostics, diagnostic.cause ≠ .unexpectedEnd ∧
        diagnostic.cause ≠ .unexpectedToken "value" ∧
          ∀ op : Operator, op.isAssignment = true →
            diagnostic.cause ≠ .unexpectedToken op.spelling := by
  intro broken source options compiled
  have expression {parts : List Part} (found : parts.any (· matches .expression _) = true) :
      ∃ tokens, .expression tokens ∈ parts := by
    obtain ⟨part, member, shape⟩ := List.any_eq_true.mp found
    cases part <;> first | exact ⟨_, member⟩ | contradiction
  have quiet : (parse source).diagnostics = [] := by decide +kernel
  have refused : compiled.diagnostics = [⟨.unexpectedToken "*", 1⟩] := by decide +kernel
  refine ⟨?_, ?_, quiet, refused,
    (expressions_well_formed source).2.2 quiet options (fun _ => .ok "") true⟩
  · have found : (match (readBody (Inner.within broken) broken 1).outcome with
        | .ok statements => (bodyParts statements).any (· matches .expression _)
        | .error _ => false) = true := by decide +kernel
    have formed := (expressions_well_formed broken).1
    rcases outcome : (readBody (Inner.within broken) broken 1).outcome with stop | statements
    · rw [outcome] at found
      exact absurd found Bool.false_ne_true
    · rw [outcome] at found
      obtain ⟨tokens, member⟩ := expression found
      exact ⟨statements, rfl, tokens, member, formed statements outcome tokens member⟩
  · have found : (bodyParts (parse source).statements).any (· matches .expression _) = true := by
      decide +kernel
    obtain ⟨tokens, member⟩ := expression found
    exact ⟨tokens, member, (expressions_well_formed source).2.1 tokens member⟩

end TypedScript
