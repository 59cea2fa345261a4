/-
**No code is lost.** Cutting a text drops its comments, the semicolons outside of literals and
brackets, and blanks. Every other character stands in the text of one statement, in the order of the
text, whatever is left open in it.
-/

import TypedScript.Proofs.Splitting.Cuts
import TypedScript.Proofs.Text.Regions

namespace TypedScript

open Text

/-- A character, unless it is a semicolon outside of literals and brackets, given the braces and
parentheses that are open in front of it. -/
def Glyph.unlessSeparator (opened : Nat × Nat) (glyph : Glyph) : List Char :=
  if glyph = ⟨';', false⟩ ∧ opened = (0, 0) then [] else [glyph.char]

/-- Characters, without the semicolons that separate statements. -/
def unseparated : Nat × Nat → List Glyph → List Char
  | _, [] => []
  | opened, glyph :: rest =>
    glyph.unlessSeparator opened ++ unseparated (bracketsBehind opened glyph) rest

/-! ### Blanks -/

theorem visible_trim (text : List Char) : visible (trim text) = visible text := by
  obtain ⟨before, after, first, last, whole⟩ := trim_eq text
  rw [congrArg visible whole, visible_append, visible_append, visible_blanks first,
    visible_blanks last, List.nil_append, List.append_nil]

theorem visible_of_isBreak {mark : Mark} (broken : mark.isBreak = true) (opened : Nat × Nat) :
    visible (mark.glyph.unlessSeparator opened) = [] := by
  obtain rfl | rfl := isBreak_iff.mp broken <;> rfl

theorem visible_unseparated (zone : Zone) (text : List Char) (opened : Nat × Nat) :
    visible (unseparated opened ((marks zone text).map Mark.glyph)) =
      visible (unseparated opened (dissect zone text).1) := by
  induction marking zone text generalizing opened with
  | done zone => cases zone <;> rfl
  | pass _ comment step ih => rw [step.marked _ List.prefix_rfl, step.dissected, ih]
  | take _ mark step ih =>
    rw [step.marked _ List.prefix_rfl, step.dissected, List.map_cons, unseparated, visible_append,
      ih]
    split_ifs with inComment
    · have broken : mark.isBreak = true := isBreak_iff.mpr (.inr inComment)
      rw [visible_of_isBreak broken, bracketsBehind_of_isBreak broken, List.nil_append]
    · rw [unseparated, visible_append]

/-! ### From mark to mark -/

namespace Splitter

variable {splitter : Splitter}

def shown (splitter : Splitter) : List Char :=
  visible (splitter.statements.reverse.flatMap Statement.text ++ splitter.current.reverse)

def Tidy (splitter : Splitter) : Prop :=
  ∀ statement ∈ splitter.statements, statement.text ≠ [] ∧ trim statement.text = statement.text

section Flush

variable {before after : Splitter} {read : List Char} {line : Nat}
  (flushed : after.statements = if trim read.reverse = [] then before.statements
    else ⟨trim read.reverse, line⟩ :: before.statements)
include flushed

theorem shown_of_flushed (ended : after.current = []) :
    after.shown = visible (before.statements.reverse.flatMap Statement.text ++ read.reverse) := by
  rw [shown, flushed, ended]
  split_ifs with blank
  · rw [visible_append, visible_append, ← visible_trim read.reverse, blank]
    rfl
  · simp [visible_append, visible_trim]

theorem tidy_of_flushed (tidy : before.Tidy) : after.Tidy := by
  unfold Tidy
  rw [flushed]
  split_ifs with blank
  · exact tidy
  · exact List.forall_mem_cons.mpr ⟨⟨blank, trim_trim _⟩, tidy⟩

end Flush

theorem take_tidy (tidy : splitter.Tidy) (mark : Mark) : (splitter.take mark).Tidy := by
  obtain kept | dropped | ended | reported := take_cases splitter mark
  · unfold Tidy
    rwa [kept.statements]
  · unfold Tidy
    rwa [dropped.statements]
  · exact tidy_of_flushed ended.flushes.statements tidy
  · exact tidy_of_flushed reported.flushes.statements tidy

/-- **One mark** is shown behind what was shown before, unless it separates statements. -/
theorem take_shown (splitter : Splitter) (mark : Mark) :
    (splitter.take mark).shown =
      splitter.shown ++ visible (mark.glyph.unlessSeparator splitter.opened) := by
  obtain kept | dropped | ended | reported := take_cases splitter mark
  · have inside : mark.ends splitter.opened = false := kept.inside
    have stays : mark.glyph.unlessSeparator splitter.opened = [mark.char] := by
      cases mark <;> simp_all [Glyph.unlessSeparator, Mark.glyph, Mark.ends, Mark.char]
    rw [stays, shown, shown, kept.statements, kept.current, List.reverse_cons, ← List.append_assoc,
      visible_append]
  · rw [visible_of_isBreak dropped.broken, List.append_nil, shown, shown, dropped.statements,
      dropped.current]
  · rw [shown_of_flushed ended.flushes.statements ended.flushes.current]
    obtain ⟨rfl, outer⟩ | ⟨rfl, outer⟩ := ends_iff.mp ended.ends
    · rw [if_pos rfl, Glyph.unlessSeparator, if_pos ⟨rfl, outer⟩]
      exact (List.append_nil _).symm
    · rw [if_neg (by decide), List.reverse_cons, ← List.append_assoc, visible_append]
      rfl
  · rw [visible_of_isBreak (isBreak_iff.mpr (.inl reported.newline)), List.append_nil,
      shown_of_flushed reported.flushes.statements reported.flushes.current, shown]

/-- **All marks** are shown in their order, without those that separate statements. -/
theorem foldl_take_shown (splitter : Splitter) (marks : List Mark) :
    (marks.foldl take splitter).shown =
      splitter.shown ++ visible (unseparated splitter.opened (marks.map Mark.glyph)) := by
  induction marks generalizing splitter with
  | nil => exact (List.append_nil _).symm
  | cons mark rest ih =>
    rw [List.foldl_cons, ih, take_shown, take_opened, List.map_cons, unseparated, visible_append,
      List.append_assoc]

theorem foldl_take_tidy (tidy : splitter.Tidy) (marks : List Mark) :
    (marks.foldl take splitter).Tidy := by
  induction marks generalizing splitter with
  | nil => exact tidy
  | cons mark rest ih => exact ih (take_tidy tidy mark)

end Splitter

open Splitter in
/-- **The statements hold the code of a text, and nothing else**: joined together and without
blanks, they are the text without comments, without the semicolons outside of literals and brackets,
and without blanks. None of them is empty, and none starts or ends with a blank. -/
theorem statements_hold_code (text : List Char) (line : Nat) :
    visible ((splitStatements text line).1.flatMap Statement.text) =
        visible (unseparated (0, 0) (dissect .code text).1) ∧
      ∀ statement ∈ (splitStatements text line).1, statement.text ≠ [] ∧
        (∀ c ∈ statement.text.head?, isBlank c = false) ∧
        ∀ c ∈ statement.text.getLast?, isBlank c = false := by
  rw [splitStatements_eq_marks]
  set read := (marks .code text).foldl take (start line)
  have start_tidy : (start line).Tidy := by simp [Tidy, start]
  have tidy : read.flush.Tidy :=
    tidy_of_flushed (flush_statements read) (foldl_take_tidy start_tidy _)
  constructor
  · rw [← visible_unseparated, ← List.append_nil (List.flatMap _ _)]
    exact (shown_of_flushed (flush_statements read) rfl).trans (foldl_take_shown (start line) _)
  · intro statement member
    obtain ⟨present, trimmed⟩ := tidy statement (List.mem_reverse.mp member)
    refine ⟨present, ?_⟩
    rw [← trimmed]
    exact ⟨head_trim _, getLast_trim _⟩

/-- A semicolon in a literal, one in a comment, one in a block, and a statement that is left open. -/
theorem statements_hold_code_open :
    let text := "a = \";//\"; // b;\nif (c) \x7bd; \x7d e".toList
    let code := "a=\";//\"if(c)\x7bd;\x7de".toList
    visible (unseparated (0, 0) (dissect .code text).1) = code ∧
      visible ((splitStatements text 1).1.flatMap Statement.text) = code ∧
      (splitStatements text 1).1.length = 3 ∧
      ∀ statement ∈ (splitStatements text 1).1, statement.text ≠ [] := by
  intro text code
  obtain ⟨same, tidy⟩ := statements_hold_code text 1
  have shown : visible (unseparated (0, 0) (dissect .code text).1) = code := by decide
  exact ⟨shown, same.trans shown, by decide, fun statement member => (tidy statement member).1⟩

end TypedScript
