/-
**Cutting what was cut.** The statements of a script, joined by semicolons, are cut into the same
statements again, and no semicolon is missed.

The cutting of the script is followed by a second reading, of what was kept of the current statement
alone. Comments are the point: what is read behind a comment must not form a new one with what was
read before it, and a newline that is dropped must not do so either.
-/

import TypedScript.Proofs.Splitting.Interiors
import TypedScript.Proofs.Splitting.Whole

namespace TypedScript

open Text

/-! ### Marks that are read again -/

theorem Quote.run_concat (quote : Quote) (list : List Mark) (mark : Mark) :
    quote.run ((list ++ [mark]).map Mark.char) =
      (quote.run (list.map Mark.char)).step mark.char := by
  simp [Quote.run]

theorem heldFrom_append {opened behind : Nat × Nat} {front : List Mark} {text : List Char}
    (whole : heldFrom opened front = (text, behind, [])) (back : List Mark) :
    heldFrom opened (front ++ back) = (heldFrom behind back).map (text ++ ·) id := by
  induction front generalizing opened text with
  | nil =>
    obtain ⟨rfl, rfl, -⟩ := whole
    rfl
  | cons mark rest ih =>
    cases inside : mark.bounds opened with
    | true =>
      rw [heldFrom_bound inside] at whole
      obtain ⟨-, -, ⟨⟩⟩ := whole
    | false =>
      rw [heldFrom_cons inside] at whole
      obtain ⟨rfl, last⟩ := Prod.mk.inj whole
      rw [List.cons_append, heldFrom_cons inside, ih (Prod.ext rfl last)]
      simp [Prod.map]

/-- What was a newline of a comment stays where a newline of code does. -/
theorem heldFrom_map_seen (opened : Nat × Nat) (list : List Mark) :
    heldFrom opened (list.map (Mark.seen true)) =
      (heldFrom opened list).map id (Prod.map id (List.map (Mark.seen true))) := by
  induction list generalizing opened with
  | nil => rfl
  | cons mark rest ih =>
    have same : (mark.seen true).bounds opened = mark.bounds opened := by
      rw [Mark.bounds, Mark.bounds, Mark.ends_seen, Mark.isBreak_seen]
    rw [List.map_cons, heldFrom, heldFrom, same, Mark.glyph_seen, Mark.char_seen, ih]
    split_ifs <;> rfl

/-- Marks whose text has these marks again, all of which stay in one statement. -/
inductive Reread : List Mark → Nat × Nat → Prop
  | nil : Reread [] (0, 0)
  | concat {list : List Mark} {opened : Nat × Nat} {mark : Mark} (others : Reread list opened)
      (inside : mark.bounds opened = false)
      (place : mark.place = Quote.outside.run (list.map Mark.char))
      (apart : ∀ last ∈ list.getLast?, last.Apart mark) :
      Reread (list ++ [mark]) (bracketsBehind opened mark.glyph)

/-- The text of a statement that has ended; a semicolon behind it changes nothing. -/
def Again (text : List Char) : Prop :=
  Cuts (text ++ [';']) [text] ∧ Finishes text [text]

namespace Reread

variable {list : List Mark} {opened : Nat × Nat}

theorem held (reread : Reread list opened) :
    heldFrom (0, 0) list = (list.map Mark.char, opened, []) := by
  induction reread with
  | nil => rfl
  | concat _ inside _ _ ih =>
    rw [heldFrom_append ih, heldFrom_cons inside, List.map_append]
    rfl

/-- **The second reading** stands behind the text where the first one did. -/
theorem held_again (reread : Reread list opened) {rest : List Char}
    (behind : rest.head? ≠ some '/' ∧ rest.head? ≠ some '*') :
    heldFrom (0, 0) (marks .code (list.map Mark.char ++ rest)) =
      (heldFrom opened (marks (.ofQuote (Quote.outside.run (list.map Mark.char))) rest)).map
        (list.map Mark.char ++ ·) id := by
  have quoted : Quoted .outside list ∧ list.IsChain Mark.Apart := by
    induction reread with
    | nil => exact ⟨trivial, .nil⟩
    | concat _ _ place apart ih =>
      exact ⟨Quoted.append_iff.mpr ⟨ih.1, place, trivial⟩,
        List.isChain_append.mpr ⟨ih.2, List.isChain_singleton _, by simpa using apart⟩⟩
  have seen : heldFrom (0, 0) (list.map (Mark.seen true)) = (list.map Mark.char, opened, []) := by
    rw [heldFrom_map_seen, reread.held]
    rfl
  exact (congrArg (heldFrom (0, 0)) (marks_map_char_append quoted.1 quoted.2 behind)).trans
    (heldFrom_append seen _)

/-- Up to a character that ends the statement. -/
theorem held_end (reread : Reread list opened)
    (outside : Quote.outside.run (list.map Mark.char) = .outside) {c : Char}
    (ends : (Mark.code c).ends opened = true) (rest : List Char) :
    heldFrom (0, 0) (marks .code (list.map Mark.char ++ c :: rest)) =
      (list.map Mark.char, opened, .code c :: marks .code rest) := by
  obtain ⟨behind, next⟩ : ((c :: rest).head? ≠ some '/' ∧ (c :: rest).head? ≠ some '*') ∧
      marks .code (c :: rest) = .code c :: marks .code rest := by
    rcases Splitter.ends_iff.mp ends with ⟨same, _⟩ | ⟨same, _⟩ <;>
    · obtain rfl := Mark.code.inj same
      exact ⟨by simp, rfl⟩
  rw [reread.held_again behind, outside]
  show (heldFrom opened (marks .code (c :: rest))).map _ id = _
  rw [next, heldFrom_bound (bounds_of_ends ends)]
  simp

/-- Blanks at the end can be left out, outside of literals as if they had not been there. -/
theorem trimmed (reread : Reread list opened) : ∃ front behind,
    front.map Mark.char = trimEnd (list.map Mark.char) ∧ Reread front behind ∧
    (Quote.outside.run (list.map Mark.char) = .outside →
      behind = opened ∧ Quote.outside.run (front.map Mark.char) = .outside) := by
  induction reread with
  | nil => exact ⟨[], (0, 0), rfl, .nil, fun _ => ⟨rfl, rfl⟩⟩
  | @concat list opened mark others inside place apart ih =>
    have text : (list ++ [mark]).map Mark.char = list.map Mark.char ++ [mark.char] := by simp
    cases blank : isBlank mark.char with
    | true =>
      obtain ⟨front, behind, chars, reread, outside⟩ := ih
      refine ⟨front, behind, ?_, reread, fun ends => ?_⟩
      · rw [chars, text, trimEnd_eq_rdropWhile, trimEnd_eq_rdropWhile,
          List.rdropWhile_concat_pos _ _ _ blank]
      · rw [bracketsBehind_of_isBlank blank]
        refine outside ?_
        have noQuote : mark.char ≠ '"' := by
          intro quote
          rw [quote] at blank
          exact absurd blank (by decide)
        rw [Quote.run_concat] at ends
        cases quote : Quote.outside.run (list.map Mark.char) with
        | outside => rfl
        | inside =>
          rw [quote, Quote.step, if_neg noQuote] at ends
          split_ifs at ends
        | escaped =>
          rw [quote] at ends
          cases ends
    | false =>
      refine ⟨list ++ [mark], _, ?_, others.concat inside place apart, fun ends => ⟨rfl, ends⟩⟩
      rw [text]
      exact (trimEnd_eq_self (by simp [blank])).symm

/-- The last statement ends with the text. -/
theorem finishes (reread : Reread list opened)
    (trimmed : trim (list.map Mark.char) = list.map Mark.char) (present : list.map Mark.char ≠ []) :
    Finishes (list.map Mark.char) [list.map Mark.char] := by
  intro splitter between
  have held := reread.held_again (show [].head? ≠ some '/' ∧ _ by simp)
  have nothing (zone : Zone) : marks zone [] = [] := by cases zone <;> rfl
  rw [List.append_nil, nothing, ← between.opened] at held
  obtain ⟨after, run, holds⟩ := Splitter.foldl_take_held held
  have current : after.current.reverse = list.map Mark.char := by
    rw [holds.current, between.current]
    simp
  rw [run]
  refine ⟨?_, holds.diagnostics⟩
  show after.flush.statements.map Statement.text = _
  rw [Splitter.flush_statements, current, trimmed, if_neg present, holds.statements]
  rfl

end Reread

/-! ### Two readings -/

/-- **The second reading**, of what was kept of the current statement, stands where the first one
does behind the marks in front of it. The statements that were found can be cut out again. -/
structure Resumes (front own : List Mark) (splitter : Splitter) : Prop where
  text : trimStart splitter.current.reverse = own.map Mark.char
  reread : Reread own splitter.opened
  quote : Quote.outside.run (own.map Mark.char) = Quote.outside.run (front.map Mark.char)
  last : own.getLast? = some (.code '/') → front.getLast? = some (.code '/')
  slash : front.getLast? = some (.code '/') → splitter.unfinished = true
  texts : ∀ text ∈ splitter.texts, Again text

namespace Resumes

open Splitter

variable {front own : List Mark} {mark : Mark} {before after : Splitter}

theorem slash_concat (given : (front ++ [mark]).getLast? = some (.code '/')) : mark = .code '/' := by
  simpa using given

theorem again (resumes : Resumes front own before) (outer : before.opened = (0, 0))
    (outside : Quote.outside.run (front.map Mark.char) = .outside)
    (present : trim before.current.reverse ≠ []) : Again (trim before.current.reverse) := by
  obtain ⟨list, behind, chars, reread, ends⟩ := resumes.reread.trimmed
  obtain ⟨rfl, outsideList⟩ := ends (resumes.quote.trans outside)
  have text : trim before.current.reverse = list.map Mark.char := by
    rw [trim, resumes.text, chars]
  have trimmed : trim (list.map Mark.char) = list.map Mark.char := by rw [← text, trim_trim]
  rw [text] at present ⊢
  rw [outer] at reread
  exact ⟨.of_held (reread.held_end outsideList rfl) rfl trimmed present,
    reread.finishes trimmed present⟩

/-- With the brace that closes it, a statement can be cut out again. -/
theorem again_block (resumes : Resumes front own before)
    (ends : (Mark.code '\x7d').ends before.opened = true)
    (outside : Quote.outside.run (front.map Mark.char) = .outside) :
    Again (trim ('\x7d' :: before.current).reverse) := by
  have text : trim ('\x7d' :: before.current).reverse = own.map Mark.char ++ ['\x7d'] := by
    rw [List.reverse_cons, trim_concat_of_not_blank _ (by decide), resumes.text]
  have trimmed : trim (own.map Mark.char ++ ['\x7d']) = own.map Mark.char ++ ['\x7d'] := by
    rw [← text, trim_trim]
  have cuts : Cuts (own.map Mark.char ++ ['\x7d']) [own.map Mark.char ++ ['\x7d']] :=
    .of_held (resumes.reread.held_end (resumes.quote.trans outside) ends) ends trimmed (by simp)
  rw [text]
  exact ⟨cuts.append .semicolon, cuts.finishes⟩

/-- Behind the end of a statement. -/
theorem flushed (resumes : Resumes front own before) {read : List Char}
    (flushes : Flushes before after read) (noSlash : mark ≠ .code '/')
    (outside : Quote.outside.run ((front ++ [mark]).map Mark.char) = .outside)
    (again : trim read.reverse ≠ [] → Again (trim read.reverse)) :
    Resumes (front ++ [mark]) [] after where
  text := by rw [flushes.current]; rfl
  reread := by rw [flushes.opened]; exact .nil
  quote := outside.symm
  last none := absurd none (by simp)
  slash given := absurd (slash_concat given) noSlash
  texts := by
    rw [Splitter.texts, flushes.statements]
    split_ifs with empty
    · exact resumes.texts
    · exact List.forall_mem_cons.mpr ⟨again empty, resumes.texts⟩

theorem keep (resumes : Resumes front own before) (keeps : Keeps before after mark)
    (place : mark.place = Quote.outside.run (front.map Mark.char))
    (apart : ∀ last ∈ front.getLast?, last.Apart mark) :
    ∃ own, Resumes (front ++ [mark]) own after := by
  have texts : after.texts = before.texts := congrArg (List.map Statement.text) keeps.statements
  have slash (given : (front ++ [mark]).getLast? = some (.code '/')) : after.unfinished = true := by
    obtain rfl := slash_concat given
    have fresh := keeps.fresh (.inr ⟨rfl, rfl⟩)
    have finished : after.finished = false := keeps.finished
    rw [unfinished, fresh, finished]
    rfl
  by_cases leading : trimStart before.current.reverse = [] ∧ isBlank mark.char = true
  · -- A blank in front of the statement: the second reading does not see it.
    obtain ⟨empty, blank⟩ := leading
    have none : own = [] := List.map_eq_nil_iff.mp (resumes.text.symm.trans empty)
    subst none
    have outside : Quote.outside.run (front.map Mark.char) = .outside := resumes.quote.symm
    refine ⟨[], ?_, ?_, ?_, fun none => absurd none (by simp), slash, texts ▸ resumes.texts⟩
    · rw [keeps.current, List.reverse_cons, trimStart_append, if_pos empty]
      simp [trimStart, blank]
    · rw [keeps.opened, bracketsBehind_of_isBlank blank]
      exact resumes.reread
    · rw [Quote.run_concat, outside, Quote.step, if_neg]
      · rfl
      · intro quote
        rw [quote] at blank
        exact absurd blank (by decide)
  · refine ⟨own ++ [mark], ?_, ?_, ?_, fun given => ?_, slash, texts ▸ resumes.texts⟩
    · rw [keeps.current, List.reverse_cons, trimStart_concat leading, resumes.text, List.map_append]
      rfl
    · rw [keeps.opened]
      refine resumes.reread.concat ?_ (place.trans resumes.quote.symm) fun last member slash => ?_
      · rw [Mark.bounds, keeps.inside, keeps.stays, Bool.or_false]
      · rw [slash] at member
        exact apart _ (resumes.last member) rfl
    · rw [Quote.run_concat, Quote.run_concat, resumes.quote]
    · rw [slash_concat given, List.getLast?_concat]

/-- A newline that is dropped does not stand behind a slash. -/
theorem drop (resumes : Resumes front own before) (drops : Drops before after mark)
    (place : mark.place = Quote.outside.run (front.map Mark.char))
    (apart : ∀ last ∈ front.getLast?, last.Apart mark) : Resumes (front ++ [mark]) own after := by
  have noSlash : front.getLast? ≠ some (.code '/') := by
    intro behind
    rcases isBreak_iff.mp drops.broken with rfl | rfl
    · exact absurd ((drops.finished rfl).1.symm.trans (resumes.slash behind)) Bool.false_ne_true
    · obtain ⟨c, same, _⟩ := apart _ behind rfl
      cases same
  refine ⟨?_, ?_, ?_, fun given => absurd (resumes.last given) noSlash, fun given => ?_, ?_⟩
  · rw [drops.current, resumes.text]
  · rw [drops.opened, ← drops.outer]
    exact resumes.reread
  · rw [resumes.quote, Quote.run_concat, ← place]
    rcases isBreak_iff.mp drops.broken with rfl | rfl <;> rfl
  · have broken := drops.broken
    rw [slash_concat given] at broken
    exact absurd broken (by decide)
  · rw [Splitter.texts, drops.statements]
    exact resumes.texts

/-- One more mark keeps the two readings together. -/
theorem take (resumes : Resumes front own before)
    (place : mark.place = Quote.outside.run (front.map Mark.char))
    (apart : ∀ last ∈ front.getLast?, last.Apart mark) :
    ∃ own, Resumes (front ++ [mark]) own (before.take mark) := by
  obtain kept | dropped | ended | reported := take_cases before mark
  · exact resumes.keep kept place apart
  · exact ⟨own, resumes.drop dropped place apart⟩
  · refine ⟨[], resumes.flushed ended.flushes ?_ ?_ ?_⟩
    all_goals rcases ends_iff.mp ended.ends with ⟨rfl, outer⟩ | ⟨rfl, outer⟩
    · decide
    · decide
    · rw [Quote.run_concat, ← place]
      rfl
    · rw [Quote.run_concat, ← place]
      rfl
    · exact resumes.again outer place.symm
    · exact fun _ => resumes.again_block ended.ends place.symm
  · obtain rfl := reported.newline
    refine ⟨[], resumes.flushed reported.flushes (by decide) ?_ ?_⟩
    · rw [Quote.run_concat, ← place]
      rfl
    · exact resumes.again reported.outer place.symm

theorem foldl_take {marks : List Mark} (quoted : Quoted .outside marks)
    (apart : marks.IsChain Mark.Apart) (line : Nat) :
    ∃ own, Resumes marks own (marks.foldl Splitter.take (start line)) := by
  induction marks using List.reverseRecOn with
  | nil =>
    exact ⟨[], rfl, .nil, rfl, id, fun given => absurd given (by simp), fun _ none => by cases none⟩
  | append_singleton front mark ih =>
    obtain ⟨first, place, -⟩ := Quoted.append_iff.mp quoted
    obtain ⟨chain, -, next⟩ := List.isChain_append.mp apart
    obtain ⟨own, resumes⟩ := ih first chain
    rw [List.foldl_append]
    exact resumes.take place fun last member => next last member mark rfl

end Resumes

/-! ### All statements -/

theorem finishes_joined {texts last : List (List Char)} (again : ∀ text ∈ texts, Again text)
    (ending : last = [] ∨ ∃ text, last = [text] ∧ Finishes text [text]) :
    Finishes ([';'].intercalate (texts ++ last)) (texts ++ last) := by
  have alone (text : List Char) : [';'].intercalate [text] = text := by simp [List.intercalate]
  induction texts with
  | nil =>
    rcases ending with rfl | ⟨text, rfl, finishes⟩
    · exact Cuts.nil.finishes
    · rw [List.nil_append, alone]
      exact finishes
  | cons text rest ih =>
    obtain ⟨first, others⟩ := List.forall_mem_cons.mp again
    have behind := ih others
    rw [List.cons_append]
    cases following : rest ++ last with
    | nil =>
      rw [alone]
      exact first.2
    | cons second more =>
      rw [following] at behind
      have joined : [';'].intercalate (text :: second :: more) =
          (text ++ [';']) ++ [';'].intercalate (second :: more) := by simp [List.intercalate]
      rw [joined]
      exact first.1.append_finishes behind

open Splitter in
/-- **Cutting the joined statements of a script gives them back, and no semicolon is missed.** -/
theorem splitStatements_rejoin (source : List Char) (line again : Nat) :
    let texts := (splitStatements source line).1.map Statement.text
    (splitStatements ([';'].intercalate texts) again).1.map Statement.text = texts ∧
      (splitStatements ([';'].intercalate texts) again).2 = [] := by
  intro texts
  obtain ⟨own, resumes⟩ :=
    Resumes.foldl_take (quoted_marks .code source) (apart_marks .code source) line
  set last := (marks .code source).foldl take (start line)
  have found : texts = last.texts.reverse ++
      if trim last.current.reverse = [] then [] else [trim last.current.reverse] := by
    show (splitStatements source line).1.map Statement.text = _
    rw [splitStatements_eq_marks, List.map_reverse, flush_statements]
    split_ifs <;> simp [Splitter.texts, last]
  rw [found]
  refine (finishes_joined (fun text member => resumes.texts text (List.mem_reverse.mp member))
    ?_).splitStatements again
  split_ifs with empty
  · exact .inl rfl
  · obtain ⟨list, behind, chars, reread, -⟩ := resumes.reread.trimmed
    have text : trim last.current.reverse = list.map Mark.char := by rw [trim, resumes.text, chars]
    refine .inr ⟨_, rfl, ?_⟩
    rw [text] at empty ⊢
    exact reread.finishes (by rw [← text, trim_trim]) empty

/-- A stray brace, a comment in front of a slash, and a literal that never ends. -/
example : (splitStatements "a \x7d b /* x\n */ / c\n(\"d".toList 1).1.map Statement.text =
    ["a \x7d".toList, "b  / c".toList, "(\"d".toList] := by decide

end TypedScript
