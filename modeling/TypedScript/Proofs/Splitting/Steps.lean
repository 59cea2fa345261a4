/-
**What one mark does to the cutting.** A mark is added to the statement being read, or it is a
newline that is dropped, or it ends the statement, or it is a newline where a semicolon is missing.
All that is known of the cutting of a text follows from these four cases.

* `Splitter.Keeps`, `Splitter.Drops`, `Splitter.Ends`, `Splitter.Reports`: the four cases.
-/

import TypedScript.Proofs.Splitting.Marks

namespace TypedScript

open Text

variable {mark : Mark}

/-! ### Characters and marks -/

/-- The braces and parentheses that are open behind one more character; there are never less than
none. -/
def bracketsBehind (opened : Nat × Nat) (glyph : Glyph) : Nat × Nat :=
  if glyph.quoted then opened
  else if glyph.char = '{' then (opened.1 + 1, opened.2)
  else if glyph.char = '}' then (opened.1 - 1, opened.2)
  else if glyph.char = '(' then (opened.1, opened.2 + 1)
  else if glyph.char = ')' then (opened.1, opened.2 - 1)
  else opened

/-- Whether a character decides nothing about the code in front of it. -/
def Glyph.isSilent (glyph : Glyph) : Bool :=
  glyph.quoted || isBlank glyph.char || ['"', '(', ')', '{'].contains glyph.char

/-- Whether a character finishes the code, given the open braces and parentheses. -/
def Glyph.finishes (glyph : Glyph) (opened : Nat × Nat) : Bool :=
  glyph.char == '}' || (glyph.char == ';' && opened == (0, 0))

/-- Whether a mark is a newline outside of literals. -/
def Mark.isBreak (mark : Mark) : Bool :=
  mark == .code '\n' || mark == .comment

/-- Whether a mark ends a statement, given the open braces and parentheses. -/
def Mark.ends (mark : Mark) (opened : Nat × Nat) : Bool :=
  (mark == .code ';' && opened == (0, 0)) ||
    (mark == .code '}' && bracketsBehind opened mark.glyph == (0, 0))

/-- The number of newlines behind a backslash. -/
def escapes (marks : List Mark) : Nat :=
  marks.count (.escaped '\n')

theorem isBreak_iff : mark.isBreak = true ↔ mark = .code '\n' ∨ mark = .comment := by
  simp [Mark.isBreak]

theorem isBlank_of_isBreak (broken : mark.isBreak = true) : isBlank mark.char = true := by
  rcases isBreak_iff.mp broken with rfl | rfl <;> rfl

theorem bracketsBehind_of_isBlank (blank : isBlank mark.char = true) (opened : Nat × Nat) :
    bracketsBehind opened mark.glyph = opened := by
  cases mark with
  | code c =>
    have plain : c ≠ '{' ∧ c ≠ '}' ∧ c ≠ '(' ∧ c ≠ ')' := by
      refine ⟨?_, ?_, ?_, ?_⟩ <;>
      · rintro rfl
        exact absurd blank (by decide)
    simp [bracketsBehind, Mark.glyph, plain]
  | _ => rfl

theorem bracketsBehind_of_isBreak (broken : mark.isBreak = true) (opened : Nat × Nat) :
    bracketsBehind opened mark.glyph = opened :=
  bracketsBehind_of_isBlank (isBlank_of_isBreak broken) opened

theorem not_ends_of_isBlank (blank : isBlank mark.char = true) (opened : Nat × Nat) :
    mark.ends opened = false := by
  have others : mark ≠ .code ';' ∧ mark ≠ .code '}' := by
    constructor <;>
    · rintro rfl
      exact absurd blank (by decide)
  simp [Mark.ends, others]

@[simp] theorem escapes_append (front back : List Mark) :
    escapes (front ++ back) = escapes front + escapes back :=
  List.count_append

/-! ### The four cases -/

namespace Splitter

def opened (splitter : Splitter) : Nat × Nat :=
  (splitter.braces, splitter.parens)

/-- Whether a newline outside of brackets ends the statement. -/
def unfinished (splitter : Splitter) : Bool :=
  splitter.fresh && !splitter.finished

/-- The mark is added to the statement being read. -/
structure Keeps (before after : Splitter) (mark : Mark) : Prop where
  inside : mark.ends before.opened = false
  stays : (mark.isBreak && before.opened == (0, 0)) = false
  opened : after.opened = bracketsBehind before.opened mark.glyph
  line : after.line + escapes [mark] = before.line + newlines [mark]
  current : after.current = mark.char :: before.current
  startLine : after.startLine =
    if before.startLine.isNone && !isBlank mark.char then some before.line else before.startLine
  statements : after.statements = before.statements
  diagnostics : after.diagnostics = before.diagnostics
  finished : after.finished =
    if mark.glyph.isSilent then before.finished else mark.glyph.finishes before.opened
  fresh : before.fresh = true ∨
    mark.glyph.isSilent = false ∧ mark.glyph.finishes before.opened = false → after.fresh = true

/-- The mark is a newline that is dropped. -/
structure Drops (before after : Splitter) (mark : Mark) : Prop where
  broken : mark.isBreak = true
  outer : before.opened = (0, 0)
  opened : after.opened = (0, 0)
  line : after.line = before.line + 1
  current : after.current = before.current
  startLine : after.startLine = before.startLine
  statements : after.statements = before.statements
  diagnostics : after.diagnostics = before.diagnostics
  stays : mark = .comment → after.unfinished = before.unfinished
  finished : mark = .code '\n' → before.unfinished = false ∧ after.fresh = false

/-- The statement of the given characters, the last one first, is found. -/
structure Flushes (before after : Splitter) (read : List Char) : Prop where
  opened : after.opened = (0, 0)
  current : after.current = []
  startLine : after.startLine = none
  fresh : after.fresh = false
  statements : after.statements =
    if trim read.reverse = [] then before.statements
    else ⟨trim read.reverse, before.startLine.getD before.line⟩ :: before.statements

/-- The mark ends the statement being read; a brace belongs to it. -/
structure Ends (before after : Splitter) (mark : Mark) : Prop where
  ends : mark.ends before.opened = true
  flushes : Flushes before after
    (if mark = .code ';' then before.current else mark.char :: before.current)
  line : after.line = before.line
  diagnostics : after.diagnostics = before.diagnostics
  finished : after.finished = true

/-- A newline behind which a semicolon is missing. -/
structure Reports (before after : Splitter) (mark : Mark) : Prop where
  newline : mark = .code '\n'
  outer : before.opened = (0, 0)
  missing : before.unfinished = true
  flushes : Flushes before after before.current
  line : after.line = before.line + 1
  diagnostics : after.diagnostics = ⟨.missingSemicolon, before.line⟩ :: before.diagnostics

theorem opened_eq_zero_iff (splitter : Splitter) :
    splitter.opened = (0, 0) ↔ splitter.outermost = true := by
  rw [outermost_iff, opened, Prod.mk.injEq]

theorem ends_iff {mark : Mark} {opened : Nat × Nat} : mark.ends opened = true ↔
    (mark = .code ';' ∧ opened = (0, 0)) ∨
      (mark = .code '}' ∧ bracketsBehind opened mark.glyph = (0, 0)) := by
  simp [Mark.ends]

theorem flush_statements (splitter : Splitter) : splitter.flush.statements =
    if trim splitter.current.reverse = [] then splitter.statements
    else ⟨trim splitter.current.reverse, splitter.startLine.getD splitter.line⟩ ::
      splitter.statements := by
  simp [flush, List.isEmpty_iff]

/-- What decides nothing leaves it as it is whether there was code. -/
theorem fresh_of_silent {splitter : Splitter} {glyph : Glyph} (silent : glyph.isSilent = true)
    (given : splitter.fresh = true ∨
      glyph.isSilent = false ∧ glyph.finishes splitter.opened = false) : splitter.fresh = true :=
  given.resolve_right fun both => Bool.false_ne_true (both.1.symm.trans silent)

/-- **All that one character of code can do.** -/
theorem code_cases (splitter : Splitter) (c : Char) :
    Keeps splitter (splitter.code c) (.code c) ∨ Drops splitter (splitter.code c) (.code c) ∨
      Ends splitter (splitter.code c) (.code c) ∨ Reports splitter (splitter.code c) (.code c) := by
  generalize made : splitter.code c = next
  unfold code at made
  split_ifs at made with quote opened closed parenOpened parenClosed newline outer semicolon blank
    <;> subst made
  · subst quote
    exact .inl ⟨rfl, rfl, rfl, rfl, rfl, rfl, rfl, rfl, rfl, fun _ => rfl⟩
  · subst opened
    exact .inl ⟨rfl, rfl, rfl, rfl, rfl, rfl, rfl, rfl, rfl, fun _ => rfl⟩
  · subst closed
    dsimp only
    have behind : (push { splitter with braces := splitter.braces - 1, finished := true } '}').opened
        = bracketsBehind splitter.opened (Mark.code '}').glyph := rfl
    split_ifs with outer
    · rw [← opened_eq_zero_iff, behind] at outer
      refine .inr (.inr (.inl ⟨by simp [Mark.ends, outer], ⟨outer, rfl, rfl, rfl, ?_⟩, rfl, rfl,
        rfl⟩))
      have line : (if splitter.startLine.isNone && !isBlank '}' then some splitter.line
          else splitter.startLine).getD splitter.line = splitter.startLine.getD splitter.line := by
        cases splitter.startLine <;> rfl
      refine (flush_statements _).trans ?_
      rw [if_neg (by decide : Mark.code '}' ≠ Mark.code ';'), ← line]
      rfl
    · rw [← opened_eq_zero_iff, behind] at outer
      exact .inl ⟨by simp [Mark.ends, outer], rfl, rfl, rfl, rfl, rfl, rfl, rfl, rfl,
        fun given => given.resolve_right fun both => Bool.false_ne_true both.2.symm⟩
  · subst parenOpened
    exact .inl ⟨rfl, rfl, rfl, rfl, rfl, rfl, rfl, rfl, rfl, fun _ => rfl⟩
  · subst parenClosed
    exact .inl ⟨rfl, rfl, rfl, rfl, rfl, rfl, rfl, rfl, rfl, fresh_of_silent rfl⟩
  · subst newline
    rw [← opened_eq_zero_iff] at outer
    by_cases missing : (splitter.fresh && !splitter.finished) = true
    · rw [breakLine_missing splitter missing]
      exact .inr (.inr (.inr ⟨rfl, outer, missing, ⟨outer, rfl, rfl, rfl, flush_statements _⟩, rfl,
        rfl⟩))
    · rw [breakLine_finished splitter missing]
      exact .inr (.inl ⟨rfl, outer, outer, rfl, rfl, rfl, rfl, rfl,
        fun same => absurd same (by decide), fun _ => ⟨Bool.not_eq_true _ ▸ missing, rfl⟩⟩)
  · subst newline
    rw [← opened_eq_zero_iff] at outer
    exact .inl ⟨rfl, by simp [outer], rfl, rfl, rfl, rfl, rfl, rfl, rfl, fresh_of_silent rfl⟩
  · rw [Bool.and_eq_true, decide_eq_true_eq, ← opened_eq_zero_iff] at semicolon
    obtain ⟨rfl, outer⟩ := semicolon
    exact .inr (.inr (.inl ⟨by simp [Mark.ends, outer],
      ⟨outer, rfl, rfl, rfl, flush_statements _⟩, rfl, rfl, rfl⟩))
  all_goals
    have plain : ¬ (c = ';' ∧ splitter.opened = (0, 0)) := by
      simpa [opened_eq_zero_iff] using semicolon
    have leaves : (Mark.code c).glyph.finishes splitter.opened = false := by
      simpa [Mark.glyph, Glyph.finishes, closed] using plain
    refine .inl ⟨?_, ?_, ?_, ?_, rfl, rfl, rfl, rfl, ?_, ?_⟩
    · simpa [Mark.ends, closed] using plain
    · simp [Mark.isBreak, newline]
    · simp [Splitter.opened, push, bracketsBehind, Mark.glyph, opened, closed, parenOpened,
        parenClosed]
    · simp [push, newlines, escapes, Mark.char, newline]
    · rw [leaves]
      simp [push, Mark.glyph, Glyph.isSilent, quote, opened, parenOpened, parenClosed, blank]
    · first | exact fun _ => rfl | exact fresh_of_silent (by simp [Mark.glyph, Glyph.isSilent, blank])

/-- **All that one mark can do.** -/
theorem take_cases (splitter : Splitter) (mark : Mark) :
    Keeps splitter (splitter.take mark) mark ∨ Drops splitter (splitter.take mark) mark ∨
      Ends splitter (splitter.take mark) mark ∨ Reports splitter (splitter.take mark) mark := by
  cases mark with
  | code c =>
    rcases code_cases splitter c with kept | dropped | ended | reported
    · exact .inl { kept with }
    · exact .inr (.inl { dropped with })
    · exact .inr (.inr (.inl { ended with flushes := { ended.flushes with } }))
    · exact .inr (.inr (.inr { reported with flushes := { reported.flushes with } }))
  | literal c =>
    rw [take]
    split_ifs with newline
    · subst newline
      exact .inl ⟨rfl, rfl, rfl, rfl, rfl, rfl, rfl, rfl, rfl, fresh_of_silent rfl⟩
    · refine .inl ⟨rfl, rfl, rfl, ?_, rfl, rfl, rfl, rfl, rfl, fresh_of_silent rfl⟩
      simp [push, newlines, escapes, Mark.char, newline]
  | escaped c =>
    refine .inl ⟨rfl, rfl, rfl, ?_, rfl, rfl, rfl, rfl, rfl, fresh_of_silent rfl⟩
    by_cases newline : c = '\n'
    · subst newline
      rfl
    · simp [take, push, newlines, escapes, Mark.char, newline]
  | comment =>
    rw [take]
    split_ifs with outer
    · rw [← opened_eq_zero_iff] at outer
      exact .inr (.inl ⟨rfl, outer, outer, rfl, rfl, rfl, rfl, rfl, fun _ => rfl,
        fun newline => absurd newline (by decide)⟩)
    · rw [← opened_eq_zero_iff] at outer
      exact .inl ⟨rfl, by simp [outer], rfl, rfl, rfl, by simp [push, nextLine, Mark.char, isBlank],
        rfl, rfl, rfl, fresh_of_silent rfl⟩

theorem take_opened (splitter : Splitter) (mark : Mark) :
    (splitter.take mark).opened = bracketsBehind splitter.opened mark.glyph := by
  obtain kept | dropped | ended | reported := take_cases splitter mark
  · exact kept.opened
  · rw [dropped.opened, bracketsBehind_of_isBreak dropped.broken, dropped.outer]
  · rw [ended.flushes.opened]
    obtain ⟨rfl, outer⟩ | ⟨rfl, outer⟩ := ends_iff.mp ended.ends
    · rw [outer]
      rfl
    · exact outer.symm
  · rw [reported.flushes.opened, bracketsBehind_of_isBreak (isBreak_iff.mpr (.inl reported.newline)),
      reported.outer]

/-! ### Lines of diagnostics -/

/-- Later diagnostics are not about earlier lines. -/
structure Onward (before after : Splitter) : Prop where
  line : before.line ≤ after.line
  diagnostics : ∀ diagnostic ∈ after.diagnostics,
    diagnostic ∈ before.diagnostics ∨ before.line ≤ diagnostic.line

theorem Onward.trans {first second third : Splitter} (one : Onward first second)
    (two : Onward second third) : Onward first third := by
  refine ⟨one.line.trans two.line, fun diagnostic member => ?_⟩
  rcases two.diagnostics diagnostic member with earlier | later
  · exact one.diagnostics diagnostic earlier
  · exact .inr (one.line.trans later)

theorem take_onward (splitter : Splitter) (mark : Mark) : Onward splitter (splitter.take mark) := by
  have same {after : Splitter} (line : splitter.line ≤ after.line)
      (diagnostics : after.diagnostics = splitter.diagnostics) : Onward splitter after :=
    ⟨line, fun _ member => .inl (diagnostics ▸ member)⟩
  obtain kept | dropped | ended | reported := take_cases splitter mark
  · have fewer : escapes [mark] ≤ newlines [mark] := by
      by_cases newline : mark = .escaped '\n'
      · subst newline
        exact Nat.le_refl 1
      · simp [escapes, newline]
    have counted := kept.line
    exact same (by omega) kept.diagnostics
  · exact same (dropped.line ▸ Nat.le_succ _) dropped.diagnostics
  · exact same ended.line.ge ended.diagnostics
  · refine ⟨reported.line ▸ Nat.le_succ _, fun diagnostic member => ?_⟩
    rw [reported.diagnostics] at member
    rcases List.mem_cons.mp member with rfl | earlier
    · exact .inr le_rfl
    · exact .inl earlier

theorem foldl_take_onward (splitter : Splitter) (marks : List Mark) :
    Onward splitter (marks.foldl take splitter) := by
  induction marks generalizing splitter with
  | nil => exact ⟨le_rfl, fun _ => .inl⟩
  | cons mark rest ih => exact (take_onward splitter mark).trans (ih _)

/-- Later diagnostics are not about earlier lines. -/
theorem run_onward {splitter : Splitter} (inCode : splitter.mode = .code) (text : List Char) :
    Onward splitter (splitter.run text) := by
  have read := run_marks .code text inCode
  obtain ⟨line, _, _, _, diagnostics⟩ := settled_spec (splitter.run text)
  have onward := foldl_take_onward splitter.placed (marks .code text)
  rw [← read] at onward
  exact ⟨line ▸ onward.line, diagnostics ▸ onward.diagnostics⟩

end Splitter

end TypedScript
