/-
**The marks of a block** are marks of the text around it. The text of a block has lost its comments,
so that it can be told where it stands only if no new comment comes up where an old one was, and if
quotes pair up as before. Only the newlines of comments are no longer told from those of code.
-/

import TypedScript.Proofs.Parsing.Blocks
import TypedScript.Proofs.Splitting.Cuts

namespace TypedScript

open Text

variable {quote : Quote} {back own list inside : List Mark} {mark : Mark} {rest : List Char}
  {depth : Nat} {opened : Nat × Nat}

/-! ### Quotes -/

/-- Marks that belong to what a pass over quotes says. -/
def Quoted : Quote → List Mark → Prop
  | _, [] => True
  | quote, mark :: rest => mark.place = quote ∧ Quoted (quote.step mark.char) rest

theorem quoted_marks (zone : Zone) (text : List Char) : Quoted zone.quote (marks zone text) := by
  induction marking zone text with
  | done zone => cases zone <;> trivial
  | pass _ comment step ih =>
    rw [step.marked _ List.prefix_rfl, ← step.quote]
    exact ih
  | take _ mark step ih =>
    rw [step.marked _ List.prefix_rfl]
    exact ⟨step.place, step.quote ▸ ih⟩

theorem Quoted.append_iff {front : List Mark} :
    Quoted quote (front ++ back) ↔
      Quoted quote front ∧ Quoted (quote.run (front.map Mark.char)) back := by
  induction front generalizing quote with
  | nil => exact ⟨fun known => ⟨trivial, known⟩, And.right⟩
  | cons mark rest ih =>
    rw [List.cons_append, Quoted, ih, Quoted, and_assoc]
    rfl

/-- What is dropped stands outside of literals. -/
theorem Quoted.kept (quoted : Quoted quote own) (opened : Nat × Nat) :
    Quoted quote (keptFrom opened own) := by
  induction own generalizing quote opened with
  | nil => trivial
  | cons mark rest ih =>
    obtain ⟨rfl, behind⟩ := quoted
    rw [keptFrom]
    split_ifs with dropped
    · rw [Bool.and_eq_true] at dropped
      rcases isBreak_iff.mp dropped.1 with rfl | rfl <;> exact ih behind _
    · exact ⟨rfl, ih behind _⟩

/-! ### Comments -/

theorem apart_marks (zone : Zone) (text : List Char) : (marks zone text).IsChain Mark.Apart := by
  induction marking zone text with
  | done zone => cases zone <;> exact List.isChain_nil
  | pass _ comment step ih =>
    rw [step.marked _ List.prefix_rfl]
    exact ih
  | take _ mark step ih =>
    rw [step.marked _ List.prefix_rfl]
    exact List.isChain_cons.mpr ⟨step.apart, ih⟩

def Mark.seen (nested : Bool) : Mark → Mark
  | .comment => if nested then .code '\n' else .comment
  | mark => mark

@[simp] theorem Mark.char_seen (nested : Bool) (mark : Mark) :
    (mark.seen nested).char = mark.char := by
  cases mark with
  | comment => cases nested <;> rfl
  | _ => rfl

@[simp] theorem Mark.glyph_seen (nested : Bool) (mark : Mark) :
    (mark.seen nested).glyph = mark.glyph := by
  cases mark with
  | comment => cases nested <;> rfl
  | _ => rfl

theorem Mark.seen_false (mark : Mark) : mark.seen false = mark := by
  cases mark <;> rfl

section Seen

variable (nested : Bool)

theorem Mark.place_seen (mark : Mark) : (mark.seen nested).place = mark.place := by
  cases mark with
  | comment => cases nested <;> rfl
  | _ => rfl

theorem Mark.isBreak_seen (mark : Mark) : (mark.seen nested).isBreak = mark.isBreak := by
  cases mark with
  | comment => cases nested <;> rfl
  | _ => rfl

theorem Mark.ends_seen (mark : Mark) (opened : Nat × Nat) :
    (mark.seen nested).ends opened = mark.ends opened := by
  cases mark with
  | comment => cases nested <;> rfl
  | _ => rfl

theorem newlines_map_seen (list : List Mark) :
    newlines (list.map (Mark.seen nested)) = newlines list := by
  simp [newlines, List.countP_map, Function.comp_def]

theorem escapes_map_seen (list : List Mark) :
    escapes (list.map (Mark.seen nested)) = escapes list := by
  unfold escapes List.count
  rw [List.countP_map]
  congr 1
  funext mark
  cases mark with
  | comment => cases nested <;> rfl
  | _ => rfl

theorem bracketsFrom_map_seen (opened : Nat × Nat) (list : List Mark) :
    bracketsFrom opened (list.map (Mark.seen nested)) = bracketsFrom opened list := by
  simp [bracketsFrom, List.foldl_map]

theorem keptFrom_map_seen (opened : Nat × Nat) (list : List Mark) :
    keptFrom opened (list.map (Mark.seen nested)) =
      (keptFrom opened list).map (Mark.seen nested) := by
  induction list generalizing opened with
  | nil => rfl
  | cons mark rest ih =>
    rw [List.map_cons, keptFrom, keptFrom, Mark.isBreak_seen, Mark.glyph_seen, ih, ih]
    split_ifs <;> rfl

theorem keptText_map_seen (list : List Mark) :
    keptText (list.map (Mark.seen nested)) = keptText list := by
  unfold keptText
  rw [keptFrom_map_seen, List.map_map]
  exact List.map_congr_left fun mark _ => Mark.char_seen nested mark

theorem Quoted.of_map_seen (quoted : Quoted quote (list.map (Mark.seen nested))) :
    Quoted quote list := by
  induction list generalizing quote with
  | nil => trivial
  | cons mark rest ih =>
    obtain ⟨place, behind⟩ := quoted
    rw [Mark.place_seen] at place
    rw [Mark.char_seen] at behind
    exact ⟨place, ih behind⟩

theorem Open.of_map_seen (isOpen : Open (own.map (Mark.seen nested))) : Open own := by
  rintro front mark back rfl
  have inside := isOpen _ _ _ (List.map_append ..)
  rwa [bracketsFrom_map_seen, Mark.ends_seen] at inside

theorem Unended.of_map_seen (unended : Unended (own.map (Mark.seen nested))) : Unended own := by
  rintro front mark back rfl present
  have inside := unended _ _ _ (List.map_append ..) (mt List.map_eq_nil_iff.mp present)
  rwa [bracketsFrom_map_seen, Mark.ends_seen] at inside

theorem first_of_map_seen
    (first : ∀ mark ∈ (own.map (Mark.seen nested)).head?, isBlank mark.char = false) :
    ∀ mark ∈ own.head?, isBlank mark.char = false := by
  intro mark member
  rw [← Mark.char_seen nested]
  exact first _ (by rw [List.head?_map]; exact Option.mem_map_of_mem _ member)

theorem Concluded.of_map_seen {marks : List Mark}
    (concluded : Concluded (marks.map (Mark.seen nested))) : Concluded marks := by
  generalize same : marks.map (Mark.seen nested) = list at concluded
  induction concluded generalizing marks with
  | start => rw [List.map_eq_nil_iff.mp same]; exact .start
  | blank _ blank ih =>
    obtain ⟨earlier, last, rfl, rfl, single⟩ := List.map_eq_append_iff.mp same
    obtain ⟨mark, rfl, rfl⟩ := List.map_eq_singleton_iff.mp single
    rw [Mark.char_seen] at blank
    exact (ih rfl).blank blank
  | statement _ first isOpen ends ih =>
    obtain ⟨front, last, rfl, both, single⟩ := List.map_eq_append_iff.mp same
    obtain ⟨earlier, own, rfl, rfl, rfl⟩ := List.map_eq_append_iff.mp both
    obtain ⟨mark, rfl, rfl⟩ := List.map_eq_singleton_iff.mp single
    rw [bracketsFrom_map_seen, Mark.ends_seen] at ends
    exact .statement (ih rfl) (first_of_map_seen nested first) (isOpen.of_map_seen nested) ends

end Seen

theorem Concluded.outside {marks : List Mark} (concluded : Concluded marks)
    (quoted : Quoted .outside marks) : Quote.outside.run (marks.map Mark.char) = .outside := by
  have run_concat (front : List Mark) (mark : Mark) :
      Quote.outside.run ((front ++ [mark]).map Mark.char) =
        (Quote.outside.run (front.map Mark.char)).step mark.char := by
    simp [Quote.run]
  induction concluded with
  | start => rfl
  | blank _ blank ih =>
    rw [run_concat, ih (Quoted.append_iff.mp quoted).1, Quote.step, if_neg]
    intro quote
    rw [quote] at blank
    exact absurd blank (by decide)
  | statement _ _ _ ends =>
    obtain ⟨_, place, _⟩ := Quoted.append_iff.mp quoted
    rw [run_concat, ← place]
    rcases Splitter.ends_iff.mp ends with ⟨rfl, _⟩ | ⟨rfl, _⟩ <;> rfl

theorem marks_cons_char (apart : mark = .code '/' → rest.head? ≠ some '/' ∧ rest.head? ≠ some '*') :
    marks (.ofQuote mark.place) (mark.char :: rest) =
      mark.seen true :: marks (.ofQuote (mark.place.step mark.char)) rest := by
  cases mark with
  | code c =>
    show marks .code (c :: rest) = _
    rw [marks_code (fun slash => (apart (by rw [slash])).1) (fun slash => (apart (by rw [slash])).2),
      Zone.behindCode_eq]
    rfl
  | literal c =>
    show marks .literal (c :: rest) = _
    rw [marks, Zone.behindLiteral_eq]
    rfl
  | escaped c =>
    show marks .escape (c :: rest) = _
    rw [marks]
    rfl
  | comment => rfl

/-- **A text that is made of marks** has these marks. -/
theorem marks_map_char_append (quoted : Quoted quote list) (apart : list.IsChain Mark.Apart)
    (behind : rest.head? ≠ some '/' ∧ rest.head? ≠ some '*') :
    marks (.ofQuote quote) (list.map Mark.char ++ rest) =
      list.map (Mark.seen true) ++ marks (.ofQuote (quote.run (list.map Mark.char))) rest := by
  induction list generalizing quote with
  | nil => rfl
  | cons mark others ih =>
    obtain ⟨rfl, quotedBehind⟩ := quoted
    obtain ⟨first, apartBehind⟩ := List.isChain_cons.mp apart
    rw [List.map_cons, List.cons_append, marks_cons_char, ih quotedBehind apartBehind]
    · rfl
    · intro slash
      cases others with
      | nil => exact behind
      | cons next more =>
        obtain ⟨d, rfl, line, block⟩ := first next rfl slash
        exact ⟨fun same => line (Option.some.inj same), fun same => block (Option.some.inj same)⟩

theorem marks_map_char (quoted : Quoted quote list) (apart : list.IsChain Mark.Apart) :
    marks (.ofQuote quote) (list.map Mark.char) = list.map (Mark.seen true) := by
  have whole := marks_map_char_append quoted apart (show [].head? ≠ some '/' ∧ _ by simp)
  have nothing (zone : Zone) : marks zone [] = [] := by cases zone <;> rfl
  rwa [nothing, List.append_nil, List.append_nil] at whole

/-! ### Blocks -/

theorem bracketsBehind_of_braceStep {below : Nat} {next : Quote}
    (step : braceStep (mark.place, depth) mark.char = some (next, below)) (outer parens : Nat) :
    ∃ parens', bracketsBehind (depth + outer, parens) mark.glyph = (below + outer, parens') := by
  cases mark with
  | code c =>
    have outside : (if c = '"' then some (Quote.inside, depth)
        else if c = '{' then some (Quote.outside, depth + 1)
        else if c = '}' then if depth = 0 then none else some (Quote.outside, depth - 1)
        else some (Quote.outside, depth)) = some (next, below) := step
    unfold bracketsBehind Mark.glyph
    rw [if_neg Bool.false_ne_true]
    split_ifs at outside with quoted opening closing none <;>
      obtain ⟨_, rfl⟩ := Prod.mk.inj (Option.some.inj outside)
    · subst quoted
      exact ⟨_, rfl⟩
    · rw [if_pos opening]
      exact ⟨parens, by rw [Nat.add_right_comm]⟩
    · rw [if_neg opening, if_pos closing]
      exact ⟨parens, by rw [Nat.sub_add_comm (Nat.pos_of_ne_zero none)]⟩
    · rw [if_neg opening, if_neg closing]
      split_ifs <;> exact ⟨_, rfl⟩
  | literal c | escaped c | comment =>
    obtain ⟨_, rfl⟩ := Prod.mk.inj (Option.some.inj step)
    exact ⟨parens, rfl⟩

theorem braces_of_braceStep {quote' : Quote} {depth' : Nat} (quoted : Quoted quote list)
    (passes : (list.map Mark.char).foldlM braceStep (quote, depth) = some (quote', depth'))
    (outer parens : Nat) : (bracketsFrom (depth + outer, parens) list).1 = depth' + outer := by
  induction list generalizing quote depth parens with
  | nil =>
    obtain ⟨_, rfl⟩ := Prod.mk.inj (Option.some.inj passes)
    rfl
  | cons mark rest ih =>
    obtain ⟨rfl, behind⟩ := quoted
    rw [List.map_cons, List.foldlM_cons, Option.bind_eq_bind, Option.bind_eq_some_iff] at passes
    obtain ⟨⟨next, below⟩, step, later⟩ := passes
    obtain rfl := (bracketStep_eq_some step 0).1
    obtain ⟨parens', opened⟩ := bracketsBehind_of_braceStep step outer parens
    show (bracketsFrom (bracketsBehind (depth + outer, parens) mark.glyph) rest).1 = _
    rw [opened]
    exact ih behind later parens'

/-- Marks between two braces that belong together: behind any of them a brace is open. -/
def Enclosed (opened : Nat × Nat) (inside : List Mark) : Prop :=
  ∀ front, front <+: inside → (bracketsFrom opened front).1 ≠ 0

theorem Enclosed.of_prefix {part : List Mark} (enclosed : Enclosed opened inside)
    (short : part <+: inside) : Enclosed opened part :=
  fun front shorter => enclosed front (shorter.trans short)

theorem enclosed_of_braceClosed (quoted : Quoted .outside inside)
    (closed : BraceClosed (inside.map Mark.char)) (below : opened.1 ≠ 0) :
    Enclosed opened inside := by
  rintro front ⟨back, rfl⟩
  have passes := closed 0
  rw [List.map_append, List.foldlM_append, Option.bind_eq_bind, Option.bind_eq_some_iff] at passes
  obtain ⟨⟨quote, depth⟩, first, _⟩ := passes
  have count := braces_of_braceStep (Quoted.append_iff.mp quoted).1 first opened.1 opened.2
  rw [Nat.zero_add] at count
  rw [count]
  omega

/-- Between braces everything stays. -/
theorem keptFrom_enclosed (cut : keptFrom opened own = inside ++ back)
    (enclosed : Enclosed opened inside) :
    ∃ after, own = inside ++ after := by
  induction inside generalizing opened own with
  | nil => exact ⟨own, rfl⟩
  | cons mark rest ih =>
    have below : opened.1 ≠ 0 := enclosed [] (List.nil_prefix)
    cases own with
    | nil => simp [keptFrom] at cut
    | cons first others =>
      have stays : (first.isBreak && opened == (0, 0)) = false := by
        rw [Bool.and_eq_false_iff, beq_eq_false_iff_ne]
        exact .inr fun zero => below (by rw [zero])
      rw [keptFrom, stays] at cut
      obtain ⟨rfl, behind⟩ := List.cons.inj cut
      obtain ⟨after, rfl⟩ := ih behind fun front short =>
        enclosed (first :: front) (List.cons_prefix_cons.mpr ⟨rfl, short⟩)
      exact ⟨after, rfl⟩

/-- **Where a block stands among the marks of its statement.** -/
structure BlockIn (own : List Mark) (before interior : List Char) (header inside : List Mark) :
    Prop where
  whole : ∃ rest, own = header ++ .code '{' :: (inside ++ rest)
  text : keptText header = before
  chars : inside.map Mark.char = interior
  closed : (bracketsFrom (0, 0) header).1 = 0
  quoted : Quoted .outside inside
  enclosed : Enclosed (bracketsFrom (0, 0) (header ++ [.code '{'])) inside

/-- Where a block stands among the marks of its statement. -/
theorem exists_block {before interior : List Char} (quoted : Quoted .outside own)
    (located : BlockAt (keptText own) before interior) :
    ∃ header inside, BlockIn own before interior header inside := by
  obtain ⟨outer, inner, after, text⟩ := located
  obtain ⟨front, rest, kept, rfl, more⟩ := List.map_eq_append_iff.mp text
  obtain ⟨opening, others, rfl, brace, behind⟩ := List.map_eq_cons_iff.mp more
  obtain ⟨inside, last, rfl, rfl, _⟩ := List.map_eq_append_iff.mp behind
  obtain ⟨header, later, rfl, rfl, stays⟩ := keptFrom_eq_append_cons kept
  have quotes := quoted.kept (0, 0)
  rw [kept, Quoted.append_iff, (run_of_bracketStep (outer 0) 0).1, Quoted] at quotes
  obtain ⟨first, place, rest⟩ := quotes
  have isOpening : opening = .code '{' := by
    cases opening with
    | code c => rw [show c = '{' from brace]
    | literal c | escaped c => contradiction
    | comment => exact absurd brace (by decide)
  subst isOpening
  have closed : (bracketsFrom (0, 0) header).1 = 0 := by
    rw [← bracketsFrom_keptFrom]
    exact braces_of_braceStep first (outer 0) 0 0
  have quotedInside := (Quoted.append_iff.mp rest).1
  have enclosed : Enclosed (bracketsFrom (0, 0) (header ++ [.code '{'])) inside := by
    refine enclosed_of_braceClosed quotedInside inner ?_
    rw [bracketsFrom_append]
    exact Nat.succ_ne_zero _
  obtain ⟨behind, rfl⟩ := keptFrom_enclosed stays enclosed
  exact ⟨header, inside, ⟨behind, rfl⟩, rfl, rfl, closed, quotedInside, enclosed⟩

end TypedScript
