/-
**Comments are invisible.** A block comment without newlines leaves the cutting of a text where it
was, so a text has the same statements with the comment and without it, and gives the same program.
-/

import TypedScript.Compile
import TypedScript.Proofs.Lines.Readers

namespace TypedScript

open Text

namespace Splitter

variable {splitter : Splitter} {comment : List Char}

/-! ### The cutting of a comment -/

theorem step_slash {c : Char} (waits : (splitter.step c).mode = .slash) : c = '/' := by
  by_contra other
  have coded {state : Splitter} (inCode : state.mode = .code) : (state.code c).mode ≠ .slash := by
    by_cases newline : c = '\n'
    · rw [newline, newline_mode, inCode]
      decide
    · rw [code_mode inCode newline]
      split_ifs <;> decide
  revert waits
  unfold step codeOrSlash
  cases place : splitter.mode with
  | code =>
    simp only [if_neg other]
    exact coded place
  | slash =>
    have behind : (code { splitter with mode := .code } '/').mode = .code :=
      code_mode rfl (by decide)
    simp only [if_neg other]
    split_ifs
    · simp
    · exact coded behind
  | quoted =>
    split_ifs <;> simp [push, nextLine, place]
  | escaped => simp [push]
  | lineComment =>
    dsimp only
    split_ifs
    · exact coded rfl
    · simp [place]
  | blockComment star =>
    dsimp only
    split_ifs <;> simp [push, nextLine]

theorem run_slash {text : List Char} {line : Nat} (waits : ((start line).run text).mode = .slash) :
    text.getLast? = some '/' := by
  rcases List.eq_nil_or_concat text with rfl | ⟨front, last, rfl⟩
  · exact nomatch waits
  · rw [List.concat_eq_append] at waits ⊢
    rw [run_concat] at waits
    rw [List.getLast?_concat, step_slash waits]

theorem run_inComment (splitter : Splitter) (oneLine : '\n' ∉ comment)
    (unclosed : ¬ ['*', '/'] <:+: comment) (star : Bool)
    (behind : star = true → comment.head? ≠ some '/') : ∃ last,
      run { splitter with mode := .blockComment star } comment =
        { splitter with mode := .blockComment last } := by
  induction comment generalizing star with
  | nil => exact ⟨star, rfl⟩
  | cons c rest ih =>
    obtain ⟨other, others⟩ := not_or.mp (mt List.mem_cons.mpr oneLine)
    have inside : ¬ (star = true ∧ c = '/') := by
      rintro ⟨waits, rfl⟩
      exact behind waits rfl
    have stays : step { splitter with mode := .blockComment star } c =
        { splitter with mode := .blockComment (c == '*') } := by
      simp [step, inside, Ne.symm other]
    show ∃ last, run (step { splitter with mode := .blockComment star } c) rest = _
    rw [stays]
    refine ih others (fun within => unclosed (within.trans (List.suffix_cons c rest).isInfix)) _ ?_
    intro waits slash
    obtain ⟨more, rfl⟩ := List.head?_eq_some_iff.mp slash
    rw [beq_iff_eq.mp waits] at unclosed
    exact unclosed ⟨[], more, rfl⟩

/-- The cutting passes over a comment. -/
theorem run_comment (inCode : splitter.mode = .code) (oneLine : '\n' ∉ comment)
    (unclosed : ¬ ['*', '/'] <:+: comment) (after : List Char) :
    splitter.run ('/' :: '*' :: (comment ++ '*' :: '/' :: after)) = splitter.run after := by
  obtain ⟨last, passed⟩ := run_inComment splitter oneLine unclosed false
    fun waits => absurd waits Bool.false_ne_true
  have opens : splitter.run ('/' :: '*' :: (comment ++ '*' :: '/' :: after)) =
      run { splitter with mode := .blockComment false } (comment ++ '*' :: '/' :: after) := by
    simp [run, step, codeOrSlash, inCode]
  have closes : run { splitter with mode := .blockComment last } ('*' :: '/' :: after) =
      run { splitter with mode := .code } after := by
    simp [run, step]
  rw [opens, run_append, passed, closes, ← inCode]

end Splitter

open Splitter

/-! ### Scripts that are cut alike -/

/-- Scripts that are cut alike are parsed alike, also if one is longer. -/
theorem parse_congr {text text' : List Char}
    (same : splitStatements text 1 = splitStatements text' 1) : parse text = parse text' := by
  have short : ∀ statement ∈ (splitStatements text 1).1,
      statement.text.length ≤ min text.length text'.length := fun statement member =>
    le_min (length_of_mem_splitStatements member) (length_of_mem_splitStatements (same ▸ member))
  have reads : readBody (Inner.within text') text' 1 = readBody (Inner.within text) text 1 := by
    unfold readBody
    rw [← same]
    exact congrArg (Reading.collect _ >>= fun _ => ·) (readStatements_upTo [] short)
  unfold parse
  rw [reads]

/-- **Comments are invisible.** A comment of one line, outside of literals and other comments, leaves
the statements of a script with their lines, its missing semicolons and its program as they are. -/
theorem comment_invisible (before comment after : List Char)
    (inCode : ((start 1).run before).nesting.inCode) (noSlash : before.getLast? ≠ some '/')
    (oneLine : '\n' ∉ comment) (unclosed : ¬ ['*', '/'] <:+: comment) :
    (∀ line, splitStatements (before ++ '/' :: '*' :: (comment ++ '*' :: '/' :: after)) line =
      splitStatements (before ++ after) line) ∧
    ∀ load check,
      compileSource load check
        (String.ofList (before ++ '/' :: '*' :: (comment ++ '*' :: '/' :: after))) =
      compileSource load check (String.ofList (before ++ after)) := by
  have cuts (line : Nat) : splitStatements (before ++ '/' :: '*' :: (comment ++ '*' :: '/' :: after))
      line = splitStatements (before ++ after) line := by
    have places : ((start line).run before).mode = .code := by
      have same (lines : Nat) : ((start (0 + lines)).run before).mode = ((start 0).run before).mode :=
        (congrArg mode (run_behind ⟨lines, [], []⟩ (start 0) before) :)
      have plain : ((start 1).run before).mode = .code :=
        inCode.resolve_right fun waits => noSlash (run_slash waits)
      rw [← Nat.zero_add line]
      exact (same line).trans ((same 1).symm.trans plain)
    have passes : (start line).run (before ++ '/' :: '*' :: (comment ++ '*' :: '/' :: after)) =
        (start line).run (before ++ after) := by
      rw [run_append, run_comment places oneLine unclosed, ← run_append]
    show (((start line).run _).finish.statements.reverse,
      ((start line).run _).finish.diagnostics.reverse) = _
    rw [passes]
    rfl
  refine ⟨cuts, fun load check => ?_⟩
  unfold compileSource
  rw [String.toList_ofList, String.toList_ofList, parse_congr (cuts 1)]

/-- A comment with a quote, a brace and stars in it, in the middle of a word of an inner block. -/
theorem comment_invisible_in_word :
    ((start 1).run "if (a) \x7bpri".toList).nesting.inCode ∧
    splitStatements ("if (a) \x7bpri".toList ++ '/' :: '*' ::
      ("; \x7d \" /*".toList ++ '*' :: '/' :: "nt(1);\n\x7d".toList)) 3 =
        ([⟨"if (a) \x7bprint(1);\n\x7d".toList, 3⟩], []) ∧
    compileSource (fun _ => .error .missingSemicolon) false
      (String.ofList ("if (a) \x7bpri".toList ++ '/' :: '*' ::
        ("; \x7d \" /*".toList ++ '*' :: '/' :: "nt(1);\n\x7d".toList))) =
      compileSource (fun _ => .error .missingSemicolon) false
        (String.ofList ("if (a) \x7bpri".toList ++ "nt(1);\n\x7d".toList)) := by
  have inCode : ((start 1).run "if (a) \x7bpri".toList).nesting.inCode := .inl (by decide)
  obtain ⟨cuts, compiles⟩ := comment_invisible "if (a) \x7bpri".toList "; \x7d \" /*".toList
    "nt(1);\n\x7d".toList inCode (by decide) (by decide) (by decide +kernel)
  exact ⟨inCode, (cuts 3).trans (by decide), compiles _ _⟩

end TypedScript
