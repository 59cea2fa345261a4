/-
**Diagnostics point into the source.** The line of a block is found by adding up newlines in texts
that were cut out, trimmed and rid of their comments. No newline is counted that the source does not
have before that place, so no line is beyond the last one. Generation reports on such lines alone.
-/

import TypedScript.Compile
import TypedScript.Proofs.Generation.Restoration
import TypedScript.Proofs.Parsing.Commands

namespace TypedScript

open Text

/-! ### Lines of what generation reports -/

variable {allowed : Nat → Prop}

/-- Only diagnostics on certain lines were added. -/
def Context.AddsOn (allowed : Nat → Prop) (before after : Context) : Prop :=
  ∀ diagnostic ∈ after.diagnostics, diagnostic ∈ before.diagnostics ∨ allowed diagnostic.line

instance (allowed : Nat → Prop) : IsPreorder Context (Context.AddsOn allowed) where
  refl _ _ member := .inl member
  trans _ _ _ first second diagnostic member :=
    (second diagnostic member).elim (first diagnostic) .inr

theorem Context.addsOn_of_eq {before after : Context}
    (same : after.diagnostics = before.diagnostics) : AddsOn allowed before after :=
  fun _ member => .inl (same ▸ member)

/-- All spots are on certain lines. -/
def On (allowed : Nat → Prop) (spots : List Spot) : Prop :=
  Good (fun spot => allowed spot.line) spots

section Lines

open Context (AddsOn)

variable {line : Nat}

theorem tolerates_of_allowed (here : allowed line) : Tolerates (AddsOn allowed) False line where
  report context cause _ diagnostic member := by
    refine (List.mem_append.mp member).imp_right fun added => ?_
    rw [List.mem_singleton.mp added]
    exact here

instance : Declares (AddsOn allowed) where
  declare _ _ := Context.addsOn_of_eq rfl

instance : Frames (AddsOn allowed) (AddsOn allowed) where
  widen := id
  use context helper := by
    refine Context.addsOn_of_eq ?_
    unfold Context.use
    split <;> rfl
  leaveBlock := id
  leaveFunction := id

theorem On.tolerated {spots : List Spot} (lines : On allowed spots) :
    Tolerated (AddsOn allowed) False spots :=
  fun spot member => tolerates_of_allowed (lines spot member)

theorem generateImport_addsOn {path : String} (here : Tolerates (AddsOn allowed) False line) :
    Gen.Keeps (AddsOn allowed) (generateImport path true line) := by
  intro before
  rcases generateImport_cases path true line before with
    ⟨module, -, -, -, -, -, added⟩ | ⟨cause, reported, -⟩
  · rw [added]
    exact Context.addsOn_of_eq rfl
  · rw [reported]
    exact here.report before False.elim

/-- **A block** reports on the lines of its statements, those of inner blocks included. -/
theorem generateLevel_addsOn {script : List Stmt} (lines : On allowed (bodySpots script)) :
    Gen.Keeps (AddsOn allowed) (generateLevel true script) :=
  .level lines.tolerated (.statements true script lines.tolerated False.elim
    fun _ _ _ here => generateImport_addsOn here)

end Lines

/-- **Compiling reports on lines of the script**, a check of the program apart. -/
theorem compile_addsOn {script : List Stmt} (lines : On allowed (bodySpots script))
    (load : String → Except Cause Module) (check : Bool) :
    ∀ diagnostic ∈ (compile load check script).diagnostics,
      diagnostic.cause.category ≠ .output → allowed diagnostic.line := by
  have added := generateLevel_addsOn lines (.start load)
  unfold compile
  dsimp only
  split
  · exact fun diagnostic member _ => (added diagnostic member).resolve_left nofun
  · split
    · exact nofun
    · rename_i diagnostic refused
      refine List.forall_mem_singleton.mpr fun category => absurd ?_ category
      split at refused
      · unfold checkProgram at refused
        split at refused
        · cases refused
        · obtain rfl := Except.error.inj refused
          rfl
      · cases refused

/-! ### Lines of a text -/

theorem count_lt_length_lines (front : List Char) (c : Char) (back : List Char) :
    front.count '\n' < (lines (front ++ c :: back)).length := by
  induction front with
  | nil =>
    rw [List.nil_append, lines]
    split_ifs
    · exact Nat.succ_pos _
    · split <;> exact Nat.succ_pos _
  | cons first rest ih =>
    rw [List.cons_append, lines]
    by_cases newline : first = '\n'
    · rw [newline, if_pos rfl, List.count_cons_self, List.length_cons]
      exact Nat.succ_lt_succ ih
    · rw [if_neg newline, List.count_cons_of_ne newline]
      split
      · rename_i none
        rw [none] at ih
        exact absurd ih (Nat.not_lt_zero _)
      · rename_i same
        rw [same] at ih
        exact ih

theorem lineAt_isSome {text : List Char} {line : Nat} (positive : 1 ≤ line)
    (below : line < (lines text).length + 1) : (lineAt text line).isSome = true := by
  obtain ⟨before, rfl⟩ := Nat.exists_eq_add_of_le' positive
  rw [lineAt, Option.isSome_map, List.getElem?_eq_getElem (by omega)]
  rfl

/-! ### Places of characters -/

/-- A line from the first one on, before the last one. -/
def Between (top bottom line : Nat) : Prop :=
  top ≤ line ∧ line < bottom

/-- Texts all of whose characters stand on certain lines. -/
structure Spans (top bottom : Nat) (text : List Char) (line : Nat) : Prop where
  top : top ≤ line
  bottom : ∀ front c back, text = front ++ c :: back → line + front.count '\n' < bottom

theorem escapes_le_newlines (marks : List Mark) : escapes marks ≤ newlines marks := by
  unfold escapes newlines List.count
  refine List.countP_mono_left fun mark _ same => ?_
  rw [beq_iff_eq.mp same]
  rfl

variable {top bottom line : Nat} {text : List Char}

theorem Spans.mark (spans : Spans top bottom text line) {front back : List Mark} {mark : Mark}
    (found : marks .code text = front ++ mark :: back) : line + newlines front < bottom := by
  obtain ⟨before, after, cut, _, _, count⟩ := marks_eq_append_cons found
  rw [← count]
  exact spans.bottom before mark.char after cut

theorem Spans.between (spans : Spans top bottom text line) {front back : List Mark} {mark : Mark}
    {counted : Nat} (found : marks .code text = front ++ mark :: back)
    (counts : counted + escapes front = line + newlines front) : Between top bottom counted := by
  have upper := spans.mark found
  have lower := spans.top
  have fewer := escapes_le_newlines front
  constructor <;> omega

/-- A character of a statement is one of its marks, behind at least as many newlines. -/
theorem keptText_eq_append_cons {own : List Mark} {front back : List Char} {c : Char}
    (cut : keptText own = front ++ c :: back) : ∃ before mark after,
      own = before ++ mark :: after ∧ front.count '\n' ≤ newlines before := by
  obtain ⟨first, rest, kept, rfl, more⟩ := List.map_eq_append_iff.mp cut
  obtain ⟨mark, others, rfl, rfl, rfl⟩ := List.map_eq_cons_iff.mp more
  obtain ⟨before, after, rfl, rfl, _⟩ := keptFrom_eq_append_cons kept
  refine ⟨before, mark, after, rfl, ?_⟩
  rw [count_map_char]
  exact (keptFrom_sublist _ _).countP_le

/-- **A block of a statement stands where the text around it stands.** -/
theorem Spans.block (spans : Spans top bottom text line) {statement : Statement}
    (member : statement ∈ (splitStatements text line).1) {skipped before interior : List Char}
    (located : BlockAt statement.text (skipped ++ before) interior) :
    Spans top bottom interior (statement.line + before.count '\n') := by
  obtain ⟨earlier, own, later, whole, cut⟩ := splitStatements_found text line statement member
  have own_count := cut.line
  have fewer := escapes_le_newlines earlier
  have lower := spans.top
  refine ⟨by omega, ?_⟩
  rintro front c back rfl
  obtain ⟨_, _, after, text_eq⟩ := located
  have position : keptText own =
      (skipped ++ before ++ '{' :: front) ++ c :: (back ++ '}' :: after) := by
    rw [← cut.text, text_eq]
    simp
  obtain ⟨passed, mark, ahead, rfl, count⟩ := keptText_eq_append_cons position
  have behind : marks .code text = (earlier ++ passed) ++ mark :: (ahead ++ later) := by
    rw [whole]
    simp
  have upper := spans.mark behind
  rw [newlines_append] at upper
  simp only [List.count_append, List.count_cons_of_ne (show '{' ≠ '\n' by decide)] at count
  omega

/-- Whatever is read of a text lies on the lines that the text spans. -/
theorem bodyGood_of_spans (spans : Spans top bottom text line) :
    BodyGood (fun found => Between top bottom found.line)
      (fun spot => Between top bottom spot.line) text line := by
  refine .of_invariant (Spans top bottom) ?_ ?_ ?_ text line spans
  · intro text line spans found member
    obtain ⟨earlier, later, whole, count⟩ := splitStatements_reported text line found member
    exact spans.between whole count
  · intro text line spans statement member
    obtain ⟨earlier, own, later, whole, cut⟩ := splitStatements_found text line statement member
    obtain ⟨first, rest, rfl⟩ := List.exists_cons_of_ne_nil cut.present
    rw [List.append_assoc] at whole
    have here := spans.between whole cut.line
    exact ⟨fun _ => here, fun _ => here⟩
  · intro text line spans statement member skipped before interior located
    exact spans.block member located

/-- **Every diagnostic points into the source.** Whatever is wrong with a script, and whatever is
imported, each diagnostic of compiling it is on an existing line of the script, unless it is about the
generated program. -/
theorem diagnostic_lines_exist (load : String → Except Cause Module) (check : Bool)
    (source : String) :
    ∀ diagnostic ∈ (compileSource load check source).diagnostics,
      diagnostic.cause.category ≠ .output →
        1 ≤ diagnostic.line ∧ (lineAt source.toList diagnostic.line).isSome = true := by
  have spans : Spans 1 ((lines source.toList).length + 1) source.toList 1 := by
    refine ⟨le_rfl, fun front c back cut => ?_⟩
    have below := count_lt_length_lines front c back
    rw [← cut] at below
    omega
  obtain ⟨reported, spots⟩ := parse_good (bodyGood_of_spans spans)
  have exists_of_between {line : Nat} (between : Between 1 ((lines source.toList).length + 1) line) :
      1 ≤ line ∧ (lineAt source.toList line).isSome = true :=
    ⟨between.1, lineAt_isSome between.1 between.2⟩
  unfold compileSource
  dsimp only
  split
  · exact fun diagnostic member other =>
      exists_of_between (compile_addsOn spots load check diagnostic member other)
  · exact fun diagnostic member _ => exists_of_between (reported diagnostic member)

/-- A declaration in a lambda in the second branch of an `if`, behind a comment of two lines. -/
theorem diagnostic_lines_exist_nested :
    let load : String → Except Cause Module := fun _ => .error .missingSemicolon
    let source := "if (true) \x7b\n\x7d else if (false) \x7b\n/* a\ncomment */ f(() => \x7b\n" ++
      "int x = \"a\";\n\x7d);\n\x7d"
    let mismatch : Diagnostic := ⟨.typeMismatch "int" "string", 5⟩
    mismatch ∈ (compileSource load false source).diagnostics ∧
      mismatch.cause.category ≠ .output ∧ 1 ≤ mismatch.line ∧
        (lineAt source.toList mismatch.line).isSome = true := by
  intro load source mismatch
  have reported : mismatch ∈ (compileSource load false source).diagnostics := by decide +kernel
  have other : mismatch.cause.category ≠ .output := by decide
  exact ⟨reported, other, diagnostic_lines_exist load false source mismatch reported other⟩

end TypedScript
