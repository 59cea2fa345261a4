/-
**Newlines and missing semicolons.** A newline outside of brackets, string literals and comments is
reported if it ends unfinished code. Whether code is finished is decided by its last character that
decides anything: quotes, parentheses, opening braces and blanks decide nothing, a closing brace and
a semicolon outside of brackets finish the code, all other characters leave it unfinished. So a line
that ends in a parenthesis or a string behind a closing brace, or that has nothing else in it, is not
reported, and its code joins that of the next line.
-/

import TypedScript.Proofs.Splitting.Steps

namespace TypedScript

open Text

/-! ### Characters outside of comments -/

/-- The text without its comments. -/
def uncommented (text : List Char) : List Char :=
  (dissect .code text).1.map Glyph.char

/-- The braces and parentheses that are open behind characters. -/
def openBrackets (glyphs : List Glyph) : Nat × Nat :=
  glyphs.foldl bracketsBehind (0, 0)

/-- The last character that decides anything leaves the code unfinished. -/
def Unfinished (text : List Char) : Prop :=
  ∃ front glyph back, (dissect .code text).1 = front ++ glyph :: back ∧
    glyph.isSilent = false ∧ glyph.finishes (openBrackets front) = false ∧
    ∀ later ∈ back, later.isSilent = true

/-! ### Counting -/

/-- What is known of a text behind its characters: the open braces and parentheses, and whether the
code is unfinished. -/
abbrev Tally := (Nat × Nat) × Bool

/-- What is known behind one more character. -/
def tallied (tally : Tally) (glyph : Glyph) : Tally :=
  (bracketsBehind tally.1 glyph, if glyph.isSilent then tally.2 else !glyph.finishes tally.1)

theorem foldl_tallied_brackets (glyphs : List Glyph) (tally : Tally) :
    (glyphs.foldl tallied tally).1 = glyphs.foldl bracketsBehind tally.1 := by
  induction glyphs generalizing tally with
  | nil => rfl
  | cons glyph rest ih =>
    rw [List.foldl_cons, List.foldl_cons, ih]
    rfl

/-- Silent characters leave it as it is whether the code is unfinished. -/
theorem foldl_tallied_silent (glyphs : List Glyph) (tally : Tally)
    (silent : ∀ glyph ∈ glyphs, glyph.isSilent = true) :
    (glyphs.foldl tallied tally).2 = tally.2 := by
  induction glyphs generalizing tally with
  | nil => rfl
  | cons glyph rest ih =>
    obtain ⟨first, others⟩ := List.forall_mem_cons.mp silent
    rw [List.foldl_cons, ih _ others, tallied, if_pos first]

theorem unfinished_iff (text : List Char) :
    Unfinished text ↔ ((dissect .code text).1.foldl tallied ((0, 0), false)).2 = true := by
  unfold Unfinished
  generalize (dissect .code text).1 = glyphs
  constructor
  · rintro ⟨front, glyph, back, rfl, decides, open_, silent⟩
    rw [List.foldl_append, List.foldl_cons, foldl_tallied_silent back _ silent, tallied, decides,
      foldl_tallied_brackets]
    simpa [openBrackets] using open_
  · -- The last character either is the one that decides, or is silent and can be left out.
    induction glyphs using List.reverseRecOn with
    | nil => nofun
    | append_singleton front glyph ih =>
      intro unfinished
      rw [List.foldl_append, List.foldl_cons, List.foldl_nil, tallied] at unfinished
      cases silent : glyph.isSilent with
      | true =>
        rw [silent, if_pos rfl] at unfinished
        obtain ⟨earlier, decisive, back, rfl, decides, leaves, others⟩ := ih unfinished
        refine ⟨earlier, decisive, back ++ [glyph], by simp, decides, leaves, ?_⟩
        intro later member
        rcases List.mem_append.mp member with inside | last
        · exact others later inside
        · rw [List.mem_singleton.mp last]
          exact silent
      | false =>
        rw [silent, foldl_tallied_brackets] at unfinished
        refine ⟨front, glyph, [], rfl, silent, ?_, nofun⟩
        simpa [openBrackets] using unfinished

instance : DecidablePred Unfinished := fun text => decidable_of_iff' _ (unfinished_iff text)

/-! ### The cutting of a line -/

namespace Splitter

/-- What the cutting knows of the text behind it. -/
def tally (splitter : Splitter) : Tally :=
  ((splitter.braces, splitter.parens), !splitter.finished)

/-- A character outside of comments was read that is no newline. -/
structure Took (before after : Splitter) (glyph : Glyph) : Prop where
  tally : after.tally = tallied before.tally glyph
  line : after.line = before.line
  diagnostics : after.diagnostics = before.diagnostics
  /-- Unfinished code was noted as such. -/
  noted : before.finished = true ∨ before.fresh = true → after.finished = true ∨ after.fresh = true

/-- The state behind some characters. -/
structure Read (before after : Splitter) (glyphs : List Glyph) (zone : Zone) : Prop where
  tally : after.tally = glyphs.foldl tallied before.tally
  line : after.line = before.line
  diagnostics : after.diagnostics = before.diagnostics
  noted : before.finished = true ∨ before.fresh = true → after.finished = true ∨ after.fresh = true
  stands : after.Stands zone []

theorem Took.read {before between after : Splitter} {glyph : Glyph} {glyphs : List Glyph}
    {zone : Zone} (first : Took before between glyph) (others : Read between after glyphs zone) :
    Read before after (glyph :: glyphs) zone where
  tally := by rw [others.tally, first.tally, List.foldl_cons]
  line := others.line.trans first.line
  diagnostics := others.diagnostics.trans first.diagnostics
  noted given := others.noted (first.noted given)
  stands := others.stands

/-- **One mark** counts as its character does outside of the cutting. -/
theorem take_took (splitter : Splitter) {mark : Mark} (noNewline : mark.char ≠ '\n') :
    Took splitter (splitter.take mark) mark.glyph := by
  have tally {finished : Bool} (same : (splitter.take mark).finished = finished) :
      (splitter.take mark).tally = (bracketsBehind splitter.opened mark.glyph, !finished) := by
    rw [← take_opened, ← same]
    rfl
  obtain kept | dropped | ended | reported := take_cases splitter mark
  · have line := kept.line
    have uncounted : escapes [mark] = 0 ∧ newlines [mark] = 0 := by
      have other : mark ≠ .escaped '\n' := fun same => noNewline (by rw [same]; rfl)
      simp [escapes, newlines, noNewline, other]
    rw [uncounted.1, uncounted.2] at line
    refine ⟨?_, line, kept.diagnostics, fun given => ?_⟩
    · rw [tally kept.finished, tallied]
      cases mark.glyph.isSilent <;> rfl
    · rw [kept.finished]
      split_ifs with silent
      · exact given.imp_right fun fresh => kept.fresh (.inl fresh)
      · cases finishes : mark.glyph.finishes splitter.opened with
        | true => exact .inl rfl
        | false => exact .inr (kept.fresh (.inr ⟨Bool.not_eq_true _ ▸ silent, finishes⟩))
  · exact absurd (by rcases isBreak_iff.mp dropped.broken with rfl | rfl <;> rfl) noNewline
  · refine ⟨?_, ended.line, ended.diagnostics, fun _ => .inl ended.finished⟩
    rw [tally ended.finished]
    rcases ends_iff.mp ended.ends with ⟨rfl, outer⟩ | ⟨rfl, _⟩
    · have zero : (splitter.braces, splitter.parens) = (0, 0) := outer
      simp [tallied, Splitter.tally, opened, zero, Mark.glyph, Glyph.isSilent, Glyph.finishes,
        isBlank]
    · rfl
  · exact absurd (by rw [reported.newline]; rfl) noNewline

/-- The cutting of a line, in terms of its characters outside of comments. -/
theorem run_dissect (zone : Zone) (text : List Char) (oneLine : '\n' ∉ text) {splitter : Splitter}
    (stands : splitter.Stands zone text) :
    Read splitter (splitter.run text).settled (dissect zone text).1 (dissect zone text).2 := by
  induction marking zone text generalizing splitter with
  | done zone =>
    rw [run, List.foldl_nil, settled_of_stands stands, dissect]
    exact ⟨rfl, rfl, rfl, id, stands⟩
  | pass _ comment step ih =>
    obtain ⟨mode, runs, next⟩ := step.runs stands
    have read := ih (fun member => oneLine (List.mem_append_right _ member)) next
    rw [runs, step.dissected]
    exact ⟨read.tally, read.line, read.diagnostics, read.noted, read.stands⟩
  | take _ mark step ih =>
    obtain ⟨noNewline, others⟩ := not_or.mp (mt List.mem_cons.mpr oneLine)
    obtain ⟨taken, runs, next, takes⟩ := step.runs stands
    have first : Took splitter taken mark.glyph := by
      have took := take_took splitter.placed (Ne.symm noNewline)
      rw [← takes] at took
      exact ⟨took.tally, took.line, took.diagnostics, took.noted⟩
    have shown : mark ≠ .comment := by
      rintro rfl
      exact noNewline rfl
    rw [runs, step.dissected, if_neg shown]
    exact first.read (ih others next)

/-! ### Lines further up, and what was found there -/

end Splitter

def Diagnostic.moved (lines : Nat) (diagnostic : Diagnostic) : Diagnostic :=
  ⟨diagnostic.cause, diagnostic.line + lines⟩

def Statement.moved (lines : Nat) (statement : Statement) : Statement :=
  ⟨statement.text, statement.line + lines⟩

namespace Splitter

/-- What stands in front of a text: a number of lines, and what was found in them. -/
structure Earlier where
  lines : Nat
  statements : List Statement
  diagnostics : List Diagnostic

/-- The same state in a text with more in front of it. -/
def behind (earlier : Earlier) (splitter : Splitter) : Splitter :=
  { splitter with
    line := splitter.line + earlier.lines
    startLine := splitter.startLine.map (· + earlier.lines)
    statements := splitter.statements.map (Statement.moved earlier.lines) ++ earlier.statements
    diagnostics :=
      splitter.diagnostics.map (Diagnostic.moved earlier.lines) ++ earlier.diagnostics }

section Behind

variable (earlier : Earlier) (splitter : Splitter)

theorem push_behind (c : Char) :
    (splitter.behind earlier).push c = (splitter.push c).behind earlier := by
  unfold push behind
  rw [Option.isNone_map]
  split_ifs <;> rfl

theorem flush_behind : (splitter.behind earlier).flush = splitter.flush.behind earlier := by
  have start : (splitter.startLine.map (· + earlier.lines)).getD (splitter.line + earlier.lines) =
      splitter.startLine.getD splitter.line + earlier.lines := by
    cases splitter.startLine <;> rfl
  unfold flush behind
  dsimp only
  rw [start]
  split_ifs <;> rfl

theorem nextLine_behind :
    (splitter.behind earlier).nextLine = splitter.nextLine.behind earlier := by
  unfold nextLine behind
  rw [Nat.add_right_comm]

theorem breakLine_behind :
    (splitter.behind earlier).breakLine = splitter.breakLine.behind earlier := by
  by_cases missing : (splitter.fresh && !splitter.finished) = true
  · have same : (splitter.behind earlier).fresh && !(splitter.behind earlier).finished := missing
    rw [breakLine_missing splitter missing, breakLine_missing _ same, ← nextLine_behind]
    exact congrArg (fun flushed => nextLine { flushed with fresh := false, finished := false })
      (flush_behind earlier { splitter with
        diagnostics := ⟨.missingSemicolon, splitter.line⟩ :: splitter.diagnostics })
  · have same : ¬ ((splitter.behind earlier).fresh &&
        !(splitter.behind earlier).finished) = true := missing
    rw [breakLine_finished splitter missing, breakLine_finished _ same, ← nextLine_behind]
    rfl

variable {earlier} in
/-- Both ways of a choice have the same in front of them. -/
theorem ite_behind {condition : Prop} [Decidable condition] {yes no yes' no' : Splitter}
    (first : yes' = yes.behind earlier) (second : no' = no.behind earlier) :
    (if condition then yes' else no') = (if condition then yes else no).behind earlier := by
  split
  · exact first
  · exact second

theorem code_behind (c : Char) :
    (splitter.behind earlier).code c = (splitter.code c).behind earlier := by
  have pushed (state : Splitter) := push_behind earlier state c
  have closed := flush_behind earlier
    (push { splitter with braces := splitter.braces - 1, finished := true } c)
  rw [← push_behind] at closed
  have newline := nextLine_behind earlier (splitter.push c)
  rw [← push_behind] at newline
  unfold code
  -- The branches are those of quotes, brackets, newlines, semicolons, blanks and all the rest.
  refine ite_behind (pushed { splitter with mode := .quoted, fresh := true })
    (ite_behind (pushed { splitter with braces := splitter.braces + 1, fresh := true })
      (ite_behind (ite_behind ?_ (pushed { splitter with
          braces := splitter.braces - 1, finished := true }))
        (ite_behind (pushed { splitter with parens := splitter.parens + 1, fresh := true })
          (ite_behind (pushed { splitter with parens := splitter.parens - 1 })
            (ite_behind (ite_behind (breakLine_behind earlier splitter) newline)
              (ite_behind ?_ (ite_behind (pushed splitter)
                (pushed { splitter with fresh := true, finished := false }))))))))
  · exact congrArg (fun flushed => { flushed with fresh := false }) closed
  · exact congrArg (fun flushed => { flushed with finished := true, fresh := false })
      (flush_behind earlier splitter)

theorem codeOrSlash_behind (c : Char) :
    (splitter.behind earlier).codeOrSlash c = (splitter.codeOrSlash c).behind earlier :=
  ite_behind rfl (code_behind earlier splitter c)

theorem step_behind (c : Char) :
    (splitter.behind earlier).step c = (splitter.step c).behind earlier := by
  have coded := code_behind earlier { splitter with mode := .code }
  have pushed := push_behind earlier splitter c
  have place : (splitter.behind earlier).mode = splitter.mode := rfl
  unfold step
  rw [place]
  cases splitter.mode with
  | code => exact codeOrSlash_behind earlier splitter c
  | slash =>
    refine ite_behind rfl (ite_behind rfl ?_)
    exact (congrArg (codeOrSlash · c) (coded '/')).trans (codeOrSlash_behind earlier _ c)
  | quoted =>
    refine ite_behind (congrArg (fun state => { state with mode := .escaped }) pushed)
      (ite_behind (congrArg (fun state => { state with mode := .code }) pushed)
        (ite_behind ?_ pushed))
    exact (congrArg nextLine pushed).trans (nextLine_behind earlier _)
  | escaped => exact push_behind earlier { splitter with mode := .quoted } c
  | lineComment => exact ite_behind (coded c) rfl
  | blockComment star =>
    have further := nextLine_behind earlier { splitter with mode := .blockComment (c == '*') }
    refine ite_behind rfl (ite_behind (ite_behind further ?_) rfl)
    exact (congrArg (push · c) further).trans (push_behind earlier _ c)

/-- What stands in front of a text has no influence on how it is cut. -/
theorem run_behind (text : List Char) :
    (splitter.behind earlier).run text = (splitter.run text).behind earlier := by
  induction text generalizing splitter with
  | nil => rfl
  | cons c rest ih =>
    show ((splitter.behind earlier).step c).run rest = _
    rw [step_behind, ih]
    rfl

theorem finish_behind : (splitter.behind earlier).finish = splitter.finish.behind earlier := by
  have settles : (splitter.behind earlier).settled = splitter.settled.behind earlier :=
    ite_behind (code_behind earlier { splitter with mode := .code } '/') rfl
  rw [finish_settled, finish_settled, settles, flush_behind]

end Behind

/-! ### The newline behind a line -/

theorem step_newline {splitter : Splitter} {zone : Zone}
    (outside : zone = .code ∨ zone = .lineComment) (stands : splitter.settled.Stands zone [])
    (outer : splitter.settled.outermost = true) :
    splitter.step '\n' = breakLine { splitter.settled with mode := .code } := by
  rcases outside with rfl | rfl
  · have inCode : splitter.settled.mode = .code := stands
    have before : splitter.nesting.inCode := by
      by_cases slash : splitter.mode = .slash
      · exact .inr slash
      · exact .inl ((congrArg mode (if_neg slash)).symm.trans inCode)
    rw [step_settled before (by decide) (fun _ => by decide), ← inCode]
    simp [code, outer]
  · have inComment : splitter.settled.mode = .lineComment := stands
    have same : splitter.settled = splitter := by
      refine if_neg fun slash => ?_
      rw [settled_mode (.inr slash)] at inComment
      contradiction
    rw [same] at outer inComment ⊢
    have still : outermost { splitter with mode := .code } = true := outer
    simp [step, inComment, code, still]

theorem breakLine_restarts {splitter : Splitter} {line : Nat} (outer : splitter.outermost = true)
    (here : splitter.line = line) (missing : (splitter.fresh && !splitter.finished) = true) :
    breakLine { splitter with mode := .code } =
      ((start line).step '\n').behind
        ⟨0, splitter.flush.statements, ⟨.missingSemicolon, line⟩ :: splitter.diagnostics⟩ := by
  obtain ⟨noBraces, noParens⟩ := (outermost_iff splitter).mp outer
  subst here
  rw [breakLine_missing { splitter with mode := .code } missing]
  show nextLine _ = behind _ (nextLine _)
  simp [flush, nextLine, behind, start, noBraces, noParens]

end Splitter

open Splitter

/-- **Where the cutting starts again, both sides are cut alone**, the second one further down. -/
theorem splitStatements_restarts {front again : List Char} {line later : Nat} {earlier : Earlier}
    (restarts : (start line).run front = ((start later).run again).behind earlier)
    (rest : List Char) : splitStatements (front ++ rest) line =
      (earlier.statements.reverse ++
          (splitStatements (again ++ rest) later).1.map (Statement.moved earlier.lines),
        earlier.diagnostics.reverse ++
          (splitStatements (again ++ rest) later).2.map (Diagnostic.moved earlier.lines)) := by
  have whole : ((start line).run (front ++ rest)).finish =
      ((start later).run (again ++ rest)).finish.behind earlier := by
    rw [run_append, restarts, run_behind, finish_behind, run_append]
  show (((start line).run (front ++ rest)).finish.statements.reverse,
    ((start line).run (front ++ rest)).finish.diagnostics.reverse) = _
  rw [whole]
  simp [behind, splitStatements, run]

/-- **A newline is reported exactly behind unfinished code**, and then both sides are cut alone, so
that no statement has text of both. -/
theorem newline_reported_iff (text rest : List Char) (line : Nat) (oneLine : '\n' ∉ text)
    (outside : (dissect .code text).2 = .code ∨ (dissect .code text).2 = .lineComment)
    (closed : openBrackets (dissect .code text).1 = (0, 0)) :
    (⟨.missingSemicolon, line⟩ ∈ (splitStatements (text ++ '\n' :: rest) line).2 ↔
      Unfinished text) ∧
    (Unfinished text → splitStatements (text ++ '\n' :: rest) line =
      ((splitStatements text line).1 ++ (splitStatements ('\n' :: rest) line).1,
        ⟨.missingSemicolon, line⟩ :: (splitStatements ('\n' :: rest) line).2)) := by
  have read : Read (start line) _ _ _ := run_dissect .code text oneLine rfl
  set last := ((start line).run text).settled with settles
  have brackets : (last.braces, last.parens) = (0, 0) := by
    rw [← closed, openBrackets]
    exact (congrArg Prod.fst read.tally).trans (foldl_tallied_brackets _ _)
  have outer : last.outermost = true := (outermost_iff last).mpr (by simpa using brackets)
  have broken := step_newline outside read.stands outer
  have unfinished : Unfinished text ↔ last.finished = false := by
    rw [unfinished_iff, ← Bool.not_eq_true']
    exact (congrArg (fun tally : Tally => tally.2 = true) read.tally).symm.to_iff
  by_cases missing : Unfinished text
  · have open_ : last.finished = false := unfinished.mp missing
    have fresh : last.fresh = true := (read.noted (.inl rfl)).resolve_left (by rw [open_]; nofun)
    have report : (last.fresh && !last.finished) = true := by rw [open_, fresh]; rfl
    have restarts : (start line).run (text ++ ['\n']) = ((start line).run ['\n']).behind _ :=
      (run_concat _ text '\n').trans (broken.trans (breakLine_restarts outer read.line report))
    have cut := splitStatements_restarts restarts rest
    have unmoved : Statement.moved 0 = id ∧ Diagnostic.moved 0 = id := ⟨rfl, rfl⟩
    have front : last.flush.statements.reverse = (splitStatements text line).1 := by
      show _ = ((start line).run text).finish.statements.reverse
      rw [finish_settled]
    rw [front, read.diagnostics, unmoved.1, unmoved.2, List.map_id, List.map_id, List.append_assoc,
      List.singleton_append] at cut
    refine ⟨iff_of_true ?_ missing, fun _ => cut⟩
    rw [cut]
    exact List.mem_cons_self
  · refine ⟨iff_of_false (fun found => ?_) missing, fun given => absurd given missing⟩
    have ended : last.finished = true := by simpa [unfinished] using missing
    have finished := breakLine_finished { last with mode := .code } (by simp [ended])
    have inCode : (((start line).run text).step '\n').mode = .code := by rw [broken, finished]; rfl
    have later := run_onward inCode rest
    have whole : ((start line).run (text ++ '\n' :: rest)) =
        (((start line).run text).step '\n').run rest := run_append _ _ _
    have inside : ⟨.missingSemicolon, line⟩ ∈
        ((((start line).run text).step '\n').run rest).diagnostics := by
      rw [← whole, ← finish_diagnostics]
      exact List.mem_reverse.mp found
    rw [broken, finished] at later inside
    rcases later.diagnostics _ inside with earlier | next
    · rw [show _ = _ from read.diagnostics] at earlier
      cases earlier
    · have here : last.line = line := read.line
      exact absurd next (by simp [nextLine, here])

/-- Braces and semicolons of a literal or a comment finish nothing. -/
theorem newline_reported_behind_comment :
    splitStatements "any x = f(\"\x7d;\") // \x7b\n\x7d;".toList 7 =
      ([⟨"any x = f(\"\x7d;\")".toList, 7⟩, ⟨"\x7d".toList, 8⟩], [⟨.missingSemicolon, 7⟩]) :=
  (newline_reported_iff "any x = f(\"\x7d;\") // \x7b".toList "\x7d;".toList 7 (by decide)
    (by decide) (by decide)).2 (by decide)

/-- A call that ends in a block has a parenthesis at its end, and is not reported. -/
theorem closed_call_unreported :
    ¬ ∀ (text rest : List Char) (line : Nat), '\n' ∉ text → (dissect .code text).2 = .code →
      openBrackets (dissect .code text).1 = (0, 0) →
      (∃ last, (trimEnd (uncommented text)).getLast? = some last ∧ last ≠ ';' ∧ last ≠ '}') →
      ⟨.missingSemicolon, line⟩ ∈ (splitStatements (text ++ '\n' :: rest) line).2 := by
  intro reported
  have found := reported "f(() => \x7b\x7d)".toList "g();".toList 1 (by decide) (by decide)
    (by decide)
    ⟨')', by decide, by decide, by decide⟩
  revert found
  decide

end TypedScript
