/-
**The characters that count.** Of a comment the cutting of a text sees the newlines only, and of all
else every character. These are the marks of the text, each with what it belongs to. What the
cutting finds depends on nothing but the marks.
-/

import TypedScript.Proofs.Text.Quotes
import TypedScript.Proofs.Text.Trimming
import TypedScript.Source.Statements

namespace TypedScript

open Text

variable {condition : Prop} {rest text : List Char} {c : Char} {splitter : Splitter} {zone : Zone}

/-! ### Characters outside of comments -/

/-- What the next character of a text belongs to. -/
inductive Zone where
  | code
  | literal
  /-- Behind a backslash in a literal. -/
  | escape
  | lineComment
  | blockComment
  deriving DecidableEq, Repr

/-- A character outside of comments. -/
structure Glyph where
  char : Char
  /-- Whether it stands behind the opening quote of a literal. The closing one does too. -/
  quoted : Bool
  deriving DecidableEq, Repr

/-- The characters of a text that are no part of a comment, and where the text ends. -/
def dissect : Zone → List Char → List Glyph × Zone
  | zone, [] => ([], zone)
  | .code, '/' :: '/' :: rest => dissect .lineComment rest
  | .code, '/' :: '*' :: rest => dissect .blockComment rest
  | .code, c :: rest =>
    let (glyphs, last) := dissect (if c = '"' then .literal else .code) rest
    (⟨c, false⟩ :: glyphs, last)
  | .literal, c :: rest =>
    let (glyphs, last) :=
      dissect (if c = '\\' then .escape else if c = '"' then .code else .literal) rest
    (⟨c, true⟩ :: glyphs, last)
  | .escape, c :: rest =>
    let (glyphs, last) := dissect .literal rest
    (⟨c, true⟩ :: glyphs, last)
  | .lineComment, c :: rest =>
    if c = '\n' then
      let (glyphs, last) := dissect .code rest
      (⟨c, false⟩ :: glyphs, last)
    else dissect .lineComment rest
  | .blockComment, '*' :: '/' :: rest => dissect .code rest
  | .blockComment, _ :: rest => dissect .blockComment rest

/-- A character that counts, and what it belongs to. -/
inductive Mark where
  | code (char : Char)
  | literal (char : Char)
  /-- Behind a backslash in a literal. -/
  | escaped (char : Char)
  /-- A newline in a block comment. -/
  | comment
  deriving DecidableEq, Repr

/-- The character itself. -/
def Mark.char : Mark → Char
  | .code c | .literal c | .escaped c => c
  | .comment => '\n'

def Zone.behindCode (c : Char) : Zone :=
  if c = '"' then .literal else .code

def Zone.behindLiteral (c : Char) : Zone :=
  if c = '\\' then .escape else if c = '"' then .code else .literal

/-- The mark as a character outside of comments. -/
def Mark.glyph : Mark → Glyph
  | .code c => ⟨c, false⟩
  | .literal c | .escaped c => ⟨c, true⟩
  | .comment => ⟨'\n', false⟩

/-- The characters of a text outside of its comments, and the newlines of its block comments. The
newline that ends a line comment is code again. -/
def marks : Zone → List Char → List Mark
  | _, [] => []
  | .code, '/' :: '/' :: rest => marks .lineComment rest
  | .code, '/' :: '*' :: rest => marks .blockComment rest
  | .code, c :: rest => .code c :: marks (.behindCode c) rest
  | .literal, c :: rest => .literal c :: marks (.behindLiteral c) rest
  | .escape, c :: rest => .escaped c :: marks .literal rest
  | .lineComment, c :: rest =>
    if c = '\n' then .code c :: marks .code rest else marks .lineComment rest
  | .blockComment, '*' :: '/' :: rest => marks .code rest
  | .blockComment, c :: rest =>
    if c = '\n' then .comment :: marks .blockComment rest else marks .blockComment rest

/-- What does not go on with a character has no such head, nor has its beginning. -/
theorem head_ne_of_absent (absent : ∀ more, condition → rest = c :: more → False)
    (front : text <+: rest) (holds : condition) : text.head? ≠ some c := by
  intro head
  obtain ⟨more, rfl⟩ := List.head?_eq_some_iff.mp head
  obtain ⟨later, rfl⟩ := front
  exact absent _ holds rfl

theorem marks_code (noLine : c = '/' → rest.head? ≠ some '/')
    (noBlock : c = '/' → rest.head? ≠ some '*') :
    marks .code (c :: rest) = .code c :: marks (.behindCode c) rest := by
  rw [marks]
  · rintro _ slash rfl
    exact noLine slash rfl
  · rintro _ slash rfl
    exact noBlock slash rfl

theorem marks_blockComment (inside : c = '*' → rest.head? ≠ some '/') :
    marks .blockComment (c :: rest) =
      if c = '\n' then .comment :: marks .blockComment rest
      else marks .blockComment rest := by
  rw [marks]
  rintro _ star rfl
  exact inside star rfl

/-- The number of newlines. -/
def newlines (marks : List Mark) : Nat :=
  marks.countP fun mark => mark.char == '\n'

theorem newlines_cons (mark : Mark) (rest : List Mark) :
    newlines (mark :: rest) = newlines rest + if mark.char = '\n' then 1 else 0 := by
  simp [newlines, List.countP_cons]

@[simp] theorem newlines_append (front back : List Mark) :
    newlines (front ++ back) = newlines front + newlines back :=
  List.countP_append

theorem count_map_char (marks : List Mark) : (marks.map Mark.char).count '\n' = newlines marks := by
  unfold newlines List.count
  rw [List.countP_map]
  rfl

/-! ### The cutting -/

/-- Where the reading of a statement stands. -/
structure Nesting where
  mode : Mode
  braces : Nat
  parens : Nat
  deriving DecidableEq, Repr

/-- Outside of literals and comments. -/
def Nesting.inCode (nesting : Nesting) : Prop :=
  nesting.mode = .code ∨ nesting.mode = .slash

namespace Splitter

/-- Where the reading of the current statement stands. -/
def nesting (splitter : Splitter) : Nesting :=
  ⟨splitter.mode, splitter.braces, splitter.parens⟩

/-- The state after a whole text. -/
def run (splitter : Splitter) (text : List Char) : Splitter :=
  text.foldl step splitter

theorem run_append (splitter : Splitter) (front back : List Char) :
    splitter.run (front ++ back) = (splitter.run front).run back :=
  List.foldl_append

theorem run_concat (splitter : Splitter) (text : List Char) (c : Char) :
    splitter.run (text ++ [c]) = (splitter.run text).step c := by
  rw [run_append]
  rfl

theorem outermost_iff (splitter : Splitter) :
    splitter.outermost = true ↔ splitter.braces = 0 ∧ splitter.parens = 0 := by
  unfold outermost
  rw [Bool.and_eq_true, beq_iff_eq, beq_iff_eq]

/-- The cutting once it is known that no comment starts. -/
def settled (splitter : Splitter) : Splitter :=
  if splitter.mode = .slash then code { splitter with mode := .code } '/' else splitter

/-- **Settling finds nothing.** -/
theorem settled_spec (splitter : Splitter) :
    splitter.settled.line = splitter.line ∧ splitter.settled.braces = splitter.braces ∧
      splitter.settled.parens = splitter.parens ∧
      splitter.settled.statements = splitter.statements ∧
      splitter.settled.diagnostics = splitter.diagnostics := by
  unfold settled
  split_ifs
  · simp [code, push, isBlank]
  · exact ⟨rfl, rfl, rfl, rfl, rfl⟩

theorem settled_mode (inCode : splitter.nesting.inCode) : splitter.settled.mode = .code := by
  unfold settled
  split_ifs with behind
  · simp [code, push, isBlank]
  · exact inCode.resolve_right behind

theorem step_settled (inCode : splitter.nesting.inCode) (noSlash : c ≠ '/')
    (noComment : splitter.mode = .slash → c ≠ '*') :
    splitter.step c = splitter.settled.code c := by
  unfold step codeOrSlash settled
  rcases inCode with plain | behind
  · rw [show splitter.mode = .code from plain]
    simp [noSlash]
  · rw [show splitter.mode = .slash from behind]
    simp [noSlash, noComment behind]

theorem finish_settled (splitter : Splitter) : splitter.finish = splitter.settled.flush := by
  unfold finish settled
  cases place : splitter.mode <;> simp

theorem finish_diagnostics (splitter : Splitter) :
    splitter.finish.diagnostics = splitter.diagnostics := by
  rw [finish_settled]
  exact (settled_spec splitter).2.2.2.2

/-- The cutting stands in a zone, in front of the given text. In a block comment a star waits for a
slash, which does not come next. -/
def Stands (splitter : Splitter) (zone : Zone) (text : List Char) : Prop :=
  match zone with
  | .code => splitter.mode = .code
  | .literal => splitter.mode = .quoted
  | .escape => splitter.mode = .escaped
  | .lineComment => splitter.mode = .lineComment
  | .blockComment => ∃ star, splitter.mode = .blockComment star ∧
      (star = true → text.head? ≠ some '/')

theorem settled_of_stands (stands : splitter.Stands zone text) : splitter.settled = splitter := by
  refine if_neg fun behind => ?_
  cases zone with
  | blockComment =>
    obtain ⟨star, inside, _⟩ := stands
    rw [behind] at inside
    contradiction
  | _ =>
    have inside : splitter.mode = _ := stands
    rw [behind] at inside
    contradiction

theorem code_mode (inCode : splitter.mode = .code) (noNewline : c ≠ '\n') :
    (splitter.code c).mode = if c = '"' then .quoted else .code := by
  unfold code
  split_ifs <;> first | rfl | exact inCode | (dsimp only; split_ifs <;> exact inCode)

/-- A character of code that opens no comment is read at once, or waits for the next one. -/
theorem run_code (inCode : splitter.mode = .code) (noNewline : c ≠ '\n')
    (noLine : ∀ more, c = '/' → rest = '/' :: more → False)
    (noBlock : ∀ more, c = '/' → rest = '*' :: more → False) :
    (splitter.run (c :: rest)).settled = ((splitter.code c).run rest).settled := by
  have coded : ∀ d, splitter.codeOrSlash d = splitter.step d := fun d => by simp [step, inCode]
  by_cases slash : c = '/'
  · subst slash
    have plain : (splitter.code '/').mode = .code := code_mode inCode noNewline
    have same : { splitter with mode := .code } = splitter := by rw [← inCode]
    have waits : splitter.step '/' = { splitter with mode := .slash } := by
      simp [step, inCode, codeOrSlash]
    cases rest with
    | nil =>
      show (splitter.step '/').settled = (splitter.code '/').settled
      rw [waits]
      simp [settled, same, plain]
    | cons d more =>
      have line : d ≠ '/' := fun equal => noLine more rfl (by rw [equal])
      have block : d ≠ '*' := fun equal => noBlock more rfl (by rw [equal])
      show (((splitter.step '/').step d).run more).settled =
        (((splitter.code '/').step d).run more).settled
      have goes : (splitter.step '/').step d = (splitter.code '/').step d := by
        rw [waits]
        simp [step, line, block, same, plain]
      rw [goes]
  · show ((splitter.step c).run rest).settled = _
    rw [← coded, codeOrSlash, if_neg slash]

theorem breakLine_missing (splitter : Splitter)
    (missing : (splitter.fresh && !splitter.finished) = true) :
    splitter.breakLine = nextLine { flush { splitter with
      diagnostics := ⟨.missingSemicolon, splitter.line⟩ :: splitter.diagnostics } with
        fresh := false, finished := false } := by
  simp only [breakLine, if_pos missing]

theorem breakLine_finished (splitter : Splitter)
    (finished : ¬ (splitter.fresh && !splitter.finished) = true) :
    splitter.breakLine = nextLine { splitter with fresh := false, finished := false } := by
  simp only [breakLine, if_neg finished]

/-- The state, whatever the next character belongs to. -/
def placed (splitter : Splitter) : Splitter :=
  { splitter with mode := .code }

theorem ite_placed [Decidable condition] {yes no yes' no' : Splitter}
    (first : yes'.placed = yes.placed) (second : no'.placed = no.placed) :
    (if condition then yes' else no').placed = (if condition then yes else no).placed := by
  split
  · exact first
  · exact second

theorem code_placed (splitter : Splitter) (c : Char) :
    (splitter.placed.code c).placed = (splitter.code c).placed := by
  have broken : splitter.placed.breakLine.placed = splitter.breakLine.placed := by
    by_cases missing : (splitter.fresh && !splitter.finished) = true
    · rw [breakLine_missing splitter missing, breakLine_missing splitter.placed missing]
      rfl
    · rw [breakLine_finished splitter missing, breakLine_finished splitter.placed missing]
      rfl
  unfold code
  exact ite_placed rfl (ite_placed rfl (ite_placed (ite_placed rfl rfl) (ite_placed rfl
    (ite_placed rfl (ite_placed (ite_placed broken rfl) (ite_placed rfl (ite_placed rfl rfl)))))))

/-- What one mark does to the cutting. -/
def take (splitter : Splitter) (mark : Mark) : Splitter :=
  match mark with
  | .code c => (splitter.code c).placed
  | .literal c => if c = '\n' then (splitter.push c).nextLine else splitter.push c
  | .escaped c => splitter.push c
  | .comment => if splitter.outermost then splitter.nextLine else splitter.nextLine.push '\n'

theorem newline_mode (splitter : Splitter) : (splitter.code '\n').mode = splitter.mode := by
  have broken : splitter.breakLine.mode = splitter.mode := by
    by_cases missing : (splitter.fresh && !splitter.finished) = true
    · rw [breakLine_missing splitter missing]
      rfl
    · rw [breakLine_finished splitter missing]
      rfl
  by_cases outer : splitter.outermost = true
  · rw [← broken]
    simp [code, outer]
  · simp [code, outer, nextLine, push]

/-- A character of code that opens no comment counts at once, or waits for the next one. -/
theorem run_take_code (inCode : splitter.mode = .code)
    (noLine : ∀ more, c = '/' → rest = '/' :: more → False)
    (noBlock : ∀ more, c = '/' → rest = '*' :: more → False) :
    (splitter.run (c :: rest)).settled = ((splitter.code c).run rest).settled ∧
      (splitter.code c).Stands (.behindCode c) rest := by
  by_cases newline : c = '\n'
  · subst newline
    have read : splitter.run ('\n' :: rest) = (splitter.code '\n').run rest := by
      simp [run, step, codeOrSlash, inCode]
    exact ⟨by rw [read], (newline_mode splitter).trans inCode⟩
  · refine ⟨run_code inCode newline noLine noBlock, ?_⟩
    have mode := code_mode inCode newline
    unfold Zone.behindCode
    split_ifs at mode ⊢ <;> exact mode

theorem step_literal (inLiteral : splitter.mode = .quoted) :
    (splitter.step c).placed = splitter.placed.take (.literal c) ∧
      (splitter.step c).Stands (.behindLiteral c) rest := by
  constructor
  · simp only [take, step, inLiteral]
    split_ifs with backslash newline quote newline
    · exact absurd (newline.symm.trans backslash) (by decide)
    · rfl
    · exact absurd (newline.symm.trans quote) (by decide)
    all_goals rfl
  · unfold Zone.behindLiteral
    simp only [step, inLiteral]
    split_ifs <;> first | rfl | exact inLiteral

theorem step_comment {star : Bool} (inComment : splitter.mode = .blockComment star) :
    (splitter.step '\n').placed = splitter.placed.take .comment ∧
      (splitter.step '\n').Stands .blockComment rest := by
  have outer : splitter.placed.outermost =
    (nextLine { splitter with mode := .blockComment false }).outermost := rfl
  refine ⟨?_, false, ?_, fun waits => absurd waits Bool.false_ne_true⟩
  · simp [take, step, inComment, outer]
    split_ifs <;> rfl
  · simp [step, inComment]
    split_ifs <;> rfl

end Splitter

/-! ### From mark to mark -/

def Mark.place : Mark → Quote
  | .code _ | .comment => .outside
  | .literal _ => .inside
  | .escaped _ => .escaped

def Zone.quote : Zone → Quote
  | .code | .lineComment | .blockComment => .outside
  | .literal => .inside
  | .escape => .escaped

/-- The zone of a text, without comments. -/
def Zone.ofQuote : Quote → Zone
  | .outside => .code
  | .inside => .literal
  | .escaped => .escape

@[simp] theorem Zone.quote_ofQuote (quote : Quote) : (Zone.ofQuote quote).quote = quote := by
  cases quote <;> rfl

theorem Zone.behindCode_eq (c : Char) : Zone.behindCode c = .ofQuote (Quote.outside.step c) := by
  rw [Zone.behindCode, Quote.step]
  split_ifs <;> rfl

theorem Zone.behindLiteral_eq (c : Char) :
    Zone.behindLiteral c = .ofQuote (Quote.inside.step c) := by
  rw [Zone.behindLiteral, Quote.step]
  split_ifs with backslash closing
  · exact absurd (backslash.symm.trans closing) (by decide)
  all_goals rfl

/-- No comment opens between two marks. -/
def Mark.Apart (left right : Mark) : Prop :=
  left = .code '/' → ∃ c, right = .code c ∧ c ≠ '/' ∧ c ≠ '*'

/-- Behind a slash that opens no comment. -/
theorem apart_head (noLine : c = '/' → rest.head? ≠ some '/')
    (noBlock : c = '/' → rest.head? ≠ some '*') :
    ∀ mark ∈ (marks (.behindCode c) rest).head?, (Mark.code c).Apart mark := by
  rintro mark member ⟨⟩
  have zone : Zone.behindCode '/' = .code := rfl
  cases rest with
  | nil => simp [marks] at member
  | cons next more =>
    have line : next ≠ '/' := fun same => noLine rfl (by rw [same]; rfl)
    have block : next ≠ '*' := fun same => noBlock rfl (by rw [same]; rfl)
    rw [zone, marks_code (fun same => absurd same line) (fun same => absurd same line)] at member
    obtain rfl := Option.some.inj member
    exact ⟨next, rfl, line, block⟩

/-- A part of a text that belongs to a comment, with no newline in it, and where the rest starts. -/
structure PassesOver (zone next : Zone) (comment rest : List Char) : Prop where
  within : '\n' ∉ comment
  quote : next.quote = zone.quote
  marked : ∀ text, text <+: rest → marks zone (comment ++ text) = marks next text
  dissected : dissect zone (comment ++ rest) = dissect next rest
  runs : ∀ {splitter : Splitter}, splitter.Stands zone (comment ++ rest) → ∃ mode,
    splitter.run (comment ++ rest) = Splitter.run { splitter with mode } rest ∧
      Splitter.Stands { splitter with mode } next rest

/-- A mark of a text, and where the rest starts. In the beginnings of the text it is the same. -/
structure TakesUp (zone next : Zone) (mark : Mark) (rest : List Char) : Prop where
  place : mark.place = zone.quote
  quote : next.quote = zone.quote.step mark.char
  apart : ∀ later ∈ (marks next rest).head?, mark.Apart later
  marked : ∀ text, text <+: rest → marks zone (mark.char :: text) = mark :: marks next text
  dissected : dissect zone (mark.char :: rest) =
    (if mark = .comment then (dissect next rest).1 else mark.glyph :: (dissect next rest).1,
      (dissect next rest).2)
  runs : ∀ {splitter : Splitter}, splitter.Stands zone (mark.char :: rest) → ∃ taken : Splitter,
    (splitter.run (mark.char :: rest)).settled = (taken.run rest).settled ∧
      taken.Stands next rest ∧ taken.placed = splitter.placed.take mark

/-- A text is read from mark to mark. -/
inductive Marking : Zone → List Char → Prop where
  | done (zone : Zone) : Marking zone []
  | pass {zone next : Zone} {rest : List Char} (behind : Marking next rest) (comment : List Char)
      (step : PassesOver zone next comment rest) : Marking zone (comment ++ rest)
  | take {zone next : Zone} {rest : List Char} (behind : Marking next rest) (mark : Mark)
      (step : TakesUp zone next mark rest) : Marking zone (mark.char :: rest)

open Splitter in
theorem marking (zone : Zone) (text : List Char) : Marking zone text := by
  induction zone, text using marks.induct with
  | case1 zone => exact .done zone
  | case2 rest ih =>
    refine ih.pass ['/', '/'] ⟨by decide, rfl, fun _ _ => rfl, rfl, fun {splitter} stands =>
      ⟨.lineComment, ?_, rfl⟩⟩
    have inCode : splitter.mode = .code := stands
    simp [run, step, codeOrSlash, inCode]
  | case3 rest ih =>
    refine ih.pass ['/', '*'] ⟨by decide, rfl, fun _ _ => rfl, rfl, fun {splitter} stands =>
      ⟨.blockComment false, ?_, false, rfl, fun waits => absurd waits Bool.false_ne_true⟩⟩
    have inCode : splitter.mode = .code := stands
    simp [run, step, codeOrSlash, inCode]
  | case4 c rest noLine noBlock ih =>
    refine ih.take (.code c) ⟨rfl, ?_, ?_, fun _ front => ?_, ?_, fun stands => ?_⟩
    · rw [Zone.behindCode_eq, Zone.quote_ofQuote]
      rfl
    · exact apart_head (head_ne_of_absent noLine List.prefix_rfl)
        (head_ne_of_absent noBlock List.prefix_rfl)
    · exact marks_code (head_ne_of_absent noLine front) (head_ne_of_absent noBlock front)
    · rw [Mark.char, dissect]
      · rfl
      · exact noLine
      · exact noBlock
    · obtain ⟨read, next⟩ := run_take_code stands noLine noBlock
      exact ⟨_, read, next, (code_placed _ c).symm⟩
  | case5 c rest ih =>
    refine ih.take (.literal c) ⟨rfl, ?_, fun _ _ same => absurd same (by simp), fun _ _ => ?_,
      ?_, fun stands => ?_⟩
    · rw [Zone.behindLiteral_eq, Zone.quote_ofQuote]
      rfl
    · rw [Mark.char, marks]
    · rw [Mark.char, dissect]
      rfl
    · obtain ⟨takes, next⟩ := step_literal stands
      exact ⟨_, rfl, next, takes⟩
  | case6 c rest ih =>
    refine ih.take (.escaped c) ⟨rfl, rfl, fun _ _ same => absurd same (by simp), fun _ _ => ?_,
      ?_, fun {splitter} stands => ⟨splitter.step c, rfl, ?_⟩⟩
    · rw [Mark.char, marks]
    · rw [Mark.char, dissect]
      rfl
    · have inLiteral : splitter.mode = .escaped := stands
      simp only [step, inLiteral]
      exact ⟨rfl, rfl⟩
  | case7 rest ih =>
    refine ih.take (.code '\n') ⟨rfl, rfl, fun _ _ same => absurd (Mark.code.inj same) (by decide),
      fun _ _ => rfl, rfl, fun {splitter} stands => ⟨splitter.placed.code '\n', ?_, ?_⟩⟩
    · have inComment : splitter.mode = .lineComment := stands
      simp [run, step, inComment, Mark.char, placed]
    · exact ⟨newline_mode splitter.placed, rfl⟩
  | case8 c rest other ih =>
    refine ih.pass [c] ⟨by simpa using Ne.symm other, rfl, fun _ _ => ?_, ?_,
      fun {splitter} stands => ⟨splitter.mode, ?_, stands⟩⟩
    · rw [List.singleton_append, marks, if_neg other]
    · rw [List.singleton_append, dissect, if_neg other]
    · have inComment : splitter.mode = .lineComment := stands
      have stays : splitter.step c = splitter := by simp [step, inComment, other]
      show (splitter.step c).run rest = splitter.run rest
      rw [stays]
  | case9 rest ih =>
    refine ih.pass ['*', '/'] ⟨by decide, rfl, fun _ _ => rfl, rfl, fun stands => ⟨.code, ?_, rfl⟩⟩
    obtain ⟨star, inComment, _⟩ := stands
    simp [run, step, inComment]
  | case10 rest _ ih =>
    refine ih.take .comment ⟨rfl, rfl, fun _ _ same => absurd same (by simp), fun _ _ => rfl,
      rfl, fun stands => ?_⟩
    obtain ⟨star, inComment, _⟩ := stands
    obtain ⟨takes, next⟩ := step_comment inComment
    exact ⟨_, rfl, next, takes⟩
  | case11 c rest ends other ih =>
    have noEnd := head_ne_of_absent ends List.prefix_rfl
    refine ih.pass [c] ⟨by simpa using Ne.symm other, rfl, fun _ front => ?_, ?_, fun stands =>
      ⟨.blockComment (c == '*'), ?_, c == '*', rfl, fun waits => noEnd (beq_iff_eq.mp waits)⟩⟩
    · rw [List.singleton_append, marks_blockComment (head_ne_of_absent ends front), if_neg other]
    · rw [List.singleton_append, dissect]
      exact ends
    · obtain ⟨star, inComment, behind⟩ := stands
      have inside : ¬ (star = true ∧ c = '/') := by
        rintro ⟨waits, slash⟩
        exact behind waits (by rw [slash]; rfl)
      simp [run, step, inComment, inside, other]

theorem length_marks_le (zone : Zone) (text : List Char) :
    (marks zone text).length ≤ text.length := by
  induction marking zone text with
  | done zone => cases zone <;> exact Nat.le_refl 0
  | pass _ comment step ih =>
    rw [step.marked _ List.prefix_rfl, List.length_append]
    exact Nat.le_add_left_of_le ih
  | take _ mark step ih =>
    rw [step.marked _ List.prefix_rfl]
    exact Nat.succ_le_succ ih

/-- Every mark is found again in the text, behind as many newlines. -/
theorem marks_eq_append_cons {front back : List Mark} {mark : Mark}
    (found : marks zone text = front ++ mark :: back) : ∃ before after,
      text = before ++ mark.char :: after ∧ marks zone before = front ∧
        marks zone (before ++ [mark.char]) = front ++ [mark] ∧
          before.count '\n' = newlines front := by
  induction marking zone text generalizing front with
  | done zone => cases zone <;> simp [marks] at found
  | pass _ comment step ih =>
    rw [step.marked _ List.prefix_rfl] at found
    obtain ⟨before, after, rfl, inside, next, count⟩ := ih found
    refine ⟨comment ++ before, after, (List.append_assoc ..).symm, ?_, ?_, ?_⟩
    · rw [step.marked _ (List.prefix_append ..), inside]
    · rw [List.append_assoc, step.marked _ ⟨after, by simp⟩, next]
    · rw [List.count_append, List.count_eq_zero.mpr step.within, Nat.zero_add, count]
  | @take zone next rest _ first step ih =>
    rw [step.marked _ List.prefix_rfl] at found
    rcases List.cons_eq_append_iff.mp found with ⟨rfl, here⟩ | ⟨others, rfl, later⟩
    · obtain ⟨rfl, rfl⟩ := List.cons.inj here
      refine ⟨[], rest, rfl, by cases zone <;> rfl, ?_, rfl⟩
      rw [List.nil_append, step.marked [] List.nil_prefix]
      cases next <;> rfl
    · obtain ⟨before, after, rfl, inside, next, count⟩ := ih later
      refine ⟨first.char :: before, after, rfl, ?_, ?_, ?_⟩
      · rw [step.marked before (List.prefix_append ..), inside]
      · rw [List.cons_append, step.marked _ ⟨after, by simp⟩, next, List.cons_append]
      · rw [List.count_cons, newlines_cons, count]
        simp

open Splitter in
/-- **The cutting goes from mark to mark.** -/
theorem run_marks (zone : Zone) (text : List Char) (stands : splitter.Stands zone text) :
    (splitter.run text).settled.placed = (marks zone text).foldl take splitter.placed := by
  induction marking zone text generalizing splitter with
  | done zone =>
    rw [run, List.foldl_nil, settled_of_stands stands]
    cases zone <;> rfl
  | pass _ comment step ih =>
    obtain ⟨mode, runs, next⟩ := step.runs stands
    rw [runs, ih next, step.marked _ List.prefix_rfl]
    rfl
  | take _ mark step ih =>
    obtain ⟨taken, runs, next, takes⟩ := step.runs stands
    rw [runs, ih next, step.marked _ List.prefix_rfl, List.foldl_cons, takes]

open Splitter in
/-- **What is found in a text** depends on nothing but its marks. -/
theorem splitStatements_eq_marks (text : List Char) (line : Nat) :
    splitStatements text line =
      (((marks .code text).foldl take (start line)).flush.statements.reverse,
        ((marks .code text).foldl take (start line)).diagnostics.reverse) := by
  have read := run_marks .code text (show (start line).Stands .code text from rfl)
  have found : (start line).placed = start line := rfl
  show (((start line).run text).finish.statements.reverse,
    ((start line).run text).finish.diagnostics.reverse) = _
  rw [finish_settled, ← found, ← read]
  rfl

end TypedScript
