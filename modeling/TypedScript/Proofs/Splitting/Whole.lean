/-
**Statements that are cut out whole.** Between its first mark and its end a statement keeps every
mark, unless there is a newline outside of brackets in it. So a text can be cut into statements that
are known beforehand, one after the other.
-/

import TypedScript.Proofs.Splitting.Steps

namespace TypedScript

open Text

variable {front back text read : List Char} {c : Char} {splitter : Splitter}
  {first second found : List (List Char)} {opened : Nat × Nat}

/-! ### Marks that stay -/

/-- Whether a mark ends its statement, or is a newline that does not stay in it, given the open braces
and parentheses. -/
def Mark.bounds (mark : Mark) (opened : Nat × Nat) : Bool :=
  mark.ends opened || (mark.isBreak && opened == (0, 0))

/-- The text of marks that stay in one statement, from given open braces and parentheses on, what is
open behind it, and the marks that follow. -/
def heldFrom : Nat × Nat → List Mark → List Char × (Nat × Nat) × List Mark
  | opened, [] => ([], opened, [])
  | opened, mark :: rest =>
    if mark.bounds opened then ([], opened, mark :: rest)
    else (heldFrom (bracketsBehind opened mark.glyph) rest).map (mark.char :: ·) id

section Held

variable {opened : Nat × Nat} {mark : Mark} {rest : List Mark}

theorem heldFrom_cons (inside : mark.bounds opened = false) : heldFrom opened (mark :: rest) =
    (heldFrom (bracketsBehind opened mark.glyph) rest).map (mark.char :: ·) id :=
  if_neg (Bool.eq_false_iff.mp inside)

theorem heldFrom_bound (bound : mark.bounds opened = true) :
    heldFrom opened (mark :: rest) = ([], opened, mark :: rest) :=
  if_pos bound

theorem bounds_of_ends (ends : mark.ends opened = true) : mark.bounds opened = true := by
  rw [Mark.bounds, ends, Bool.true_or]

end Held

/-- A text stays in its statement, whatever follows. -/
def Stays (text : List Char) (opened : Nat × Nat) : Prop :=
  ∀ rest, heldFrom (0, 0) (marks .code (text ++ rest)) =
    (heldFrom opened (marks .code rest)).map (text ++ ·) id

theorem Stays.append (first : Stays front (0, 0)) (second : Stays back opened) :
    Stays (front ++ back) opened := by
  intro rest
  rw [List.append_assoc, first, second]
  simp [Prod.map]

theorem Stays.held (stays : Stays text opened) (ends : (Mark.code c).ends opened = true)
    (rest : List Char) :
    heldFrom (0, 0) (marks .code (text ++ c :: rest)) =
      (text, opened, .code c :: marks .code rest) := by
  have next : marks .code (c :: rest) = .code c :: marks .code rest := by
    rcases Splitter.ends_iff.mp ends with ⟨same, _⟩ | ⟨same, _⟩ <;>
    · obtain rfl := Mark.code.inj same
      rfl
  rw [stays, next, heldFrom_bound (bounds_of_ends ends)]
  simp

namespace Splitter

variable {mark : Mark} {marks rest : List Mark}

/-- The texts of the statements found so far, the last one first. -/
def texts (splitter : Splitter) : List (List Char) :=
  splitter.statements.map Statement.text

theorem take_keeps (inside : mark.bounds splitter.opened = false) :
    Keeps splitter (splitter.take mark) mark := by
  obtain ⟨noEnd, noBreak⟩ := Bool.or_eq_false_iff.mp inside
  obtain kept | dropped | ended | reported := take_cases splitter mark
  · exact kept
  · simp [dropped.broken, dropped.outer] at noBreak
  · exact absurd (noEnd.symm.trans ended.ends) Bool.false_ne_true
  · simp [reported.newline, reported.outer, Mark.isBreak] at noBreak

/-- A text was added to the statement being read, and nothing was found. -/
structure Holds (before after : Splitter) (text : List Char) (opened : Nat × Nat) : Prop where
  opened : after.opened = opened
  current : after.current = text.reverse ++ before.current
  statements : after.statements = before.statements
  diagnostics : after.diagnostics = before.diagnostics
  stays : ∀ line, before.startLine = some line → after.startLine = some line
  starts : before.startLine = none → ∀ c ∈ text.head?, isBlank c = false →
    after.startLine = some before.line

/-- **The cutting keeps a text whole** up to the first mark that does not stay in the statement. -/
theorem foldl_take_held {opened : Nat × Nat}
    (held : heldFrom splitter.opened marks = (text, opened, rest)) :
    ∃ after, marks.foldl take splitter = rest.foldl take after ∧
      Holds splitter after text opened := by
  have nothing : Holds splitter splitter [] splitter.opened :=
    ⟨rfl, rfl, rfl, rfl, fun _ => id, fun _ _ none => absurd none (by simp)⟩
  induction marks generalizing splitter text with
  | nil =>
    obtain ⟨rfl, rfl, rfl⟩ := held
    exact ⟨splitter, rfl, nothing⟩
  | cons mark others ih =>
    cases inside : mark.bounds splitter.opened with
    | true =>
      rw [heldFrom_bound inside] at held
      obtain ⟨rfl, rfl, rfl⟩ := held
      exact ⟨splitter, rfl, nothing⟩
    | false =>
      have keeps := take_keeps inside
      rw [heldFrom_cons inside, ← keeps.opened] at held
      obtain ⟨found, last⟩ := Prod.mk.inj held
      obtain ⟨after, run, holds⟩ := ih (Prod.ext rfl last)
        ⟨rfl, rfl, rfl, rfl, fun _ => id, fun _ _ none => absurd none (by simp)⟩
      subst found
      refine ⟨after, run, holds.opened, ?_, holds.statements.trans keeps.statements,
        holds.diagnostics.trans keeps.diagnostics, fun line known => holds.stays line ?_, ?_⟩
      · rw [holds.current, keeps.current]
        simp
      · rw [keeps.startLine, known]
        rfl
      · rintro unknown _ ⟨⟩ shown
        refine holds.stays _ ?_
        rw [keeps.startLine, unknown, shown]
        rfl

/-! ### Between statements -/

/-- Between two statements. -/
structure Between (splitter : Splitter) : Prop where
  opened : splitter.opened = (0, 0)
  current : splitter.current = []
  startLine : splitter.startLine = none
  fresh : splitter.fresh = false

theorem start_between (line : Nat) : Between (start line) :=
  ⟨rfl, rfl, rfl, rfl⟩

/-- **The next statement** is the text that stays, with the brace that ends it. It stands in the line
of its first character. -/
theorem Between.cut (between : Between splitter) {opened : Nat × Nat}
    (held : heldFrom (0, 0) marks = (read, opened, mark :: rest)) (ends : mark.ends opened = true)
    (whole : text = if mark = .code ';' then read else read ++ [mark.char]) :
    ∃ after line, Between after ∧ after.diagnostics = splitter.diagnostics ∧
      marks.foldl take splitter = rest.foldl take after ∧
      after.statements = (if trim text = [] then splitter.statements
        else ⟨trim text, line⟩ :: splitter.statements) ∧
      (∀ c ∈ read.head?, isBlank c = false → line = splitter.line) := by
  rw [← between.opened] at held
  obtain ⟨before, run, holds⟩ := foldl_take_held held
  have read' : before.current = read.reverse := by
    rw [holds.current, between.current, List.append_nil]
  have ended : Ends before (before.take mark) mark := by
    rw [← holds.opened] at ends
    obtain kept | dropped | ended | reported := take_cases before mark
    · exact absurd (kept.inside.symm.trans ends) Bool.false_ne_true
    · rw [not_ends_of_isBlank (isBlank_of_isBreak dropped.broken)] at ends
      exact absurd ends Bool.false_ne_true
    · exact ended
    · rw [reported.newline] at ends
      exact absurd ends (by simp [Mark.ends])
  have flushes := ended.flushes
  have same : (if mark = .code ';' then before.current else mark.char :: before.current).reverse =
      text := by
    rw [whole, read']
    split_ifs <;> simp
  refine ⟨before.take mark, before.startLine.getD before.line,
    ⟨flushes.opened, flushes.current, flushes.startLine, flushes.fresh⟩,
    ended.diagnostics.trans holds.diagnostics, run, ?_, fun c first shown => ?_⟩
  · rw [flushes.statements, same, holds.statements]
  · rw [holds.starts between.startLine c first shown]
    rfl

end Splitter

/-! ### Texts that are cut -/

open Splitter

/-- Between statements, a text is cut into the given ones, whatever follows, and nothing is
reported. -/
def Cuts (text : List Char) (found : List (List Char)) : Prop :=
  ∀ (splitter : Splitter) (rest : List Char), splitter.Between → ∃ after : Splitter,
    after.Between ∧ after.texts = found.reverse ++ splitter.texts ∧
    after.diagnostics = splitter.diagnostics ∧
    (marks .code (text ++ rest)).foldl take splitter = (marks .code rest).foldl take after

namespace Cuts

theorem nil : Cuts [] [] :=
  fun splitter _ between => ⟨splitter, between, rfl, rfl, rfl⟩

theorem append (cutsFront : Cuts front first) (cutsBack : Cuts back second) :
    Cuts (front ++ back) (first ++ second) := by
  intro splitter rest between
  obtain ⟨middle, middleBetween, texts, diagnostics, run⟩ :=
    cutsFront splitter (back ++ rest) between
  obtain ⟨after, afterBetween, laterTexts, laterDiagnostics, laterRun⟩ :=
    cutsBack middle rest middleBetween
  refine ⟨after, afterBetween, ?_, laterDiagnostics.trans diagnostics, ?_⟩
  · rw [laterTexts, texts, List.reverse_append, List.append_assoc]
  · rw [List.append_assoc, run, laterRun]

theorem newline : Cuts ['\n'] [] := by
  intro splitter rest between
  have finished : splitter.unfinished = false := by rw [unfinished, between.fresh, Bool.false_and]
  refine ⟨splitter.take (.code '\n'), ?_⟩
  obtain kept | dropped | ended | reported := take_cases splitter (.code '\n')
  · exact absurd kept.stays (by simp [between.opened, Mark.isBreak])
  · exact ⟨⟨dropped.opened, dropped.current.trans between.current,
      dropped.startLine.trans between.startLine, (dropped.finished rfl).2⟩,
      congrArg (List.map Statement.text) dropped.statements, dropped.diagnostics, rfl⟩
  · exact absurd ended.ends (by simp [Mark.ends])
  · exact absurd (finished.symm.trans reported.missing) Bool.false_ne_true

theorem semicolon : Cuts [';'] [] := by
  intro splitter rest between
  obtain ⟨after, line, afterBetween, diagnostics, run, statements, -⟩ :=
    between.cut (show heldFrom (0, 0) (marks .code (';' :: rest)) =
      ([], (0, 0), .code ';' :: marks .code rest) from rfl) rfl rfl
  exact ⟨after, afterBetween, congrArg (List.map Statement.text) statements, diagnostics, run⟩

/-- A statement up to the character that ends it, which is no part of it if it is a semicolon. -/
theorem of_held {opened : Nat × Nat}
    (held : ∀ rest, heldFrom (0, 0) (marks .code (read ++ c :: rest)) =
      (read, opened, .code c :: marks .code rest)) (ends : (Mark.code c).ends opened = true)
    (trimmed : trim (if c = ';' then read else read ++ [c]) = text) (present : text ≠ []) :
    Cuts (read ++ [c]) [text] := by
  intro splitter rest between
  have whole : (if c = ';' then read else read ++ [c]) =
      if Mark.code c = .code ';' then read else read ++ [(Mark.code c).char] := by
    simp [Mark.char]
  obtain ⟨after, line, afterBetween, diagnostics, run, statements, -⟩ :=
    between.cut (held rest) ends whole
  rw [trimmed, if_neg present] at statements
  refine ⟨after, afterBetween, ?_, diagnostics, by rw [List.append_assoc]; exact run⟩
  rw [texts, statements]
  rfl

end Cuts

/-- Between statements, a text that ends there is cut into the given ones, and nothing is reported. -/
def Finishes (text : List Char) (found : List (List Char)) : Prop :=
  ∀ splitter : Splitter, splitter.Between →
    ((marks .code text).foldl take splitter).flush.texts = found.reverse ++ splitter.texts ∧
    ((marks .code text).foldl take splitter).diagnostics = splitter.diagnostics

theorem Cuts.finishes (cuts : Cuts text found) : Finishes text found := by
  intro splitter between
  obtain ⟨after, afterBetween, texts, diagnostics, run⟩ := cuts splitter [] between
  rw [List.append_nil] at run
  have same : after.flush.statements = after.statements := by
    rw [flush_statements, afterBetween.current]
    rfl
  rw [run]
  exact ⟨(congrArg (List.map Statement.text) same).trans texts, diagnostics⟩

theorem Cuts.append_finishes (cuts : Cuts front first) (finishes : Finishes back second) :
    Finishes (front ++ back) (first ++ second) := by
  intro splitter between
  obtain ⟨middle, middleBetween, texts, diagnostics, run⟩ := cuts splitter back between
  obtain ⟨laterTexts, laterDiagnostics⟩ := finishes middle middleBetween
  rw [run, laterTexts, laterDiagnostics, texts, List.reverse_append, List.append_assoc]
  exact ⟨rfl, diagnostics⟩

theorem Finishes.splitStatements (finishes : Finishes text found) (line : Nat) :
    (splitStatements text line).1.map Statement.text = found ∧
      (splitStatements text line).2 = [] := by
  obtain ⟨texts, diagnostics⟩ := finishes (start line) (start_between line)
  rw [splitStatements_eq_marks, diagnostics, List.map_reverse]
  refine ⟨?_, rfl⟩
  rw [show List.map Statement.text _ = _ from texts]
  simp [Splitter.texts, start]

end TypedScript
