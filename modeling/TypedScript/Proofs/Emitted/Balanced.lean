/-
**Programs are balanced.** The names of a script are words, so no name has a bracket or a quote in it.
As literals are closed too, the brackets of a whole program are in balance.
-/

import TypedScript.Proofs.Emitted.Weaving
import TypedScript.Proofs.Parsing.Commands

namespace TypedScript

open Text

theorem closed_of_isNameChar {name : String} (word : ∀ c ∈ name.toList, isNameChar c = true) :
    Closed name := by
  refine .of_unmarked fun c member marked => ?_
  have each : ∀ c ∈ bracketMarks, isNameChar c = false := by decide
  have wordChar := word c member
  rw [each c marked] at wordChar
  contradiction

/-! ### Woven texts -/

namespace Balance

/-- The same reading with further brackets that wait to be closed. -/
def above (pending : List Bracket) : Balance → Balance
  | .code opened => .code (opened ++ pending)
  | .quoted opened => .quoted (opened ++ pending)
  | .escaped opened => .escaped (opened ++ pending)

theorem read_above {start last : Balance} {text : List Char} (reads : read start text = some last)
    (pending : List Bracket) : read (start.above pending) text = some (last.above pending) := by
  have step_above (state next : Balance) (c : Char) : step state c = some next →
      step (state.above pending) c = some (next.above pending) := by
    rcases state with (_ | ⟨last, others⟩) | opened | opened
    all_goals
      simp only [step, stepCode, above, List.nil_append, List.cons_append]
      cases Bracket.opened? c <;> cases Bracket.closed? c <;> grind [above]
  unfold read at *
  induction text generalizing start with
  | nil =>
    obtain rfl := Option.some.inj reads
    rfl
  | cons c rest ih =>
    obtain ⟨next, takes, reads⟩ := Option.bind_eq_some_iff.mp reads
    rw [List.foldlM_cons, step_above _ _ _ takes]
    exact ih reads

end Balance

/-- A woven text leaves open what its marks have opened. -/
theorem leads_weave :
    Weave fun _ _ opened text => ∀ pending, Leads pending text (opened ++ pending) where
  same whole _ := whole
  start _ := rfl
  plain unmarked := Closed.of_unmarked fun c member marked =>
    unmarked c member (List.mem_cons_of_mem _ marked)
  call helper := by cases helper <;> exact fun _ => rfl
  mark front fits pending := by
    refine (front pending).append ?_
    unfold markedBy? at fits
    split_ifs at fits
    split at fits
    · rename_i reads
      obtain rfl := Option.some.inj fits
      exact Balance.read_above reads pending
    · contradiction
  spaces front indent pending := by
    refine (front pending).append (Closed.of_unmarked (fun c member => ?_) _)
    rw [Target.padding, String.toList_ofList] at member
    rw [List.eq_of_mem_replicate member]
    decide
  inner front whole pending := (front pending).append (whole _)

/-! ### Programs -/

theorem Helper.closed_definitions (used : List Helper) : Closed (Helper.definitions used) := by
  refine .join fun text member => ?_
  obtain ⟨helper, -, rfl⟩ := List.mem_map.mp member
  refine .append (fun _ => ?_) fun _ => rfl
  cases helper <;> exact (congrArg _ String.toList_ofList).trans rfl

theorem closed_assemble (helpers : List Helper) {body : List Target.Stmt}
    (lines : Closed (Target.writeLines 1 body)) : Closed (assemble [] helpers body) := by
  have definitions := Helper.closed_definitions helpers
  exact fun _ => .append (.append (.append rfl (definitions _)) (lines _)) rfl

theorem generateStatements_keeps_plain {block : List Stmt}
    (plain : ∀ stmt ∈ block, stmt.kind.isImport = false) (toplevel : Bool) :
    Gen.Keeps Context.SameBlock (generateStatements toplevel block) := by
  induction block with
  | nil =>
    rw [generateStatements]
    exact .pure
  | cons stmt rest ih =>
    obtain ⟨line, kind⟩ := stmt
    rw [List.forall_mem_cons] at plain
    rw [generateStatements, generateStatement]
    exact .bind (generateKind_keeps toplevel line kind fun _ => plain.1).attempt fun _ =>
      .bind (ih plain.2) fun _ => .pure

theorem Part.IsSound.closed {part : Part} (sound : part.IsSound) :
    ∀ text ∈ part.written?, Closed text := by
  cases part with
  | expression tokens => exact nofun
  | base name | property name | declared name =>
    rintro _ ⟨⟩
    exact closed_of_isNameChar sound
  | text value =>
    rintro _ ⟨⟩
    exact Json.closed_writeText value
  | literal value =>
    rintro _ ⟨⟩
    exact value.closed_write

theorem compileSource_accepted {load : String → Except Cause Module} {check : Bool} {source : String}
    (accepted : (compileSource load check source).diagnostics = []) :
    (parse source.toList).diagnostics = [] ∧
      compileSource load check source = compile load check (parse source.toList).statements := by
  unfold compileSource at accepted ⊢
  dsimp only at accepted ⊢
  split at accepted
  · rename_i quiet
    rw [if_pos quiet]
    exact ⟨List.isEmpty_iff.mp quiet, rfl⟩
  · rename_i reported
    exact absurd (List.isEmpty_iff.mpr accepted) reported

/-- **Programs are balanced.** In the program of a script without imports that is accepted, every
bracket is closed by one of its kind, nothing is closed that was not opened last, and every text
literal ends. The names, texts, lists and objects of the script, as they are written, close all that
they open and nothing else, so none of them ends the brackets or quotes around it. -/
theorem program_balanced {load : String → Except Cause Module} {check : Bool} {source : String}
    (accepted : (compileSource load check source).diagnostics = [])
    (plain : ∀ stmt ∈ (parse source.toList).statements, stmt.kind.isImport = false) :
    isBalanced (compileSource load check source).code.toList = true ∧
      ∀ part ∈ bodyParts (parse source.toList).statements, ∀ text ∈ part.written?, Closed text := by
  have sound := parse_sound source.toList
  refine ⟨?_, fun part member => (sound part member).closed⟩
  have same := (compileSource_accepted accepted).2
  rw [same] at accepted ⊢
  obtain ⟨_, body, last, _, -, level, -, -, -, made, code⟩ := compile_made accepted
  have kept : Gen.Keeps Context.SameBlock (generateLevel true (parse source.toList).statements) :=
    level_keeps (generateStatements_keeps_plain plain true)
  have imports : last.imports = [] := by
    have same := (kept (.start load)).imports
    rwa [level] at same
  rw [code, imports]
  have lines := made.woven leads_weave (fun part member => (sound part member).closed) 1
  exact (closed_assemble last.helpers lines).isBalanced

/-- Texts and keys with brackets, quotes and backslashes in them. -/
theorem program_balanced_literals :
    let load : String → Except Cause Module := fun path => .error (.variableNotDeclared path)
    let source := "string s = \"])\\\"\x7b\";\nobject o = \x7b\"(\\\\\": [\"\x7d\"]\x7d;\n" ++
      "func void f(any a) \x7b if (a[0] == s) \x7b return; \x7d \x7d\nf(o.keys());"
    (compileSource load false source).diagnostics = [] ∧
      (∀ stmt ∈ (parse source.toList).statements, stmt.kind.isImport = false) ∧
      isBalanced (compileSource load false source).code.toList = true := by
  intro load source
  have accepted : (compileSource load false source).diagnostics = [] := by decide +kernel
  have plain : ∀ stmt ∈ (parse source.toList).statements, stmt.kind.isImport = false := by
    decide +kernel
  exact ⟨accepted, plain, (program_balanced accepted plain).1⟩

end TypedScript
