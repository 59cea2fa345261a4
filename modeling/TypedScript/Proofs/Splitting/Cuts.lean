/-
**Where statements are cut out.** Every statement that is found in a text is a stretch of its marks,
from the first one that is not blank to the last one that is not blank. Of the stretch, the newlines
outside of brackets and literals are dropped. The line of the statement counts the newlines before it
but those behind a backslash in a literal.
-/

import TypedScript.Proofs.Splitting.Newlines

namespace TypedScript

open Text

variable {opened : Nat × Nat} {front back : List Mark} {complete complete' : Prop}
  {statement : Statement} {read : List Char}

/-! ### Marks -/

def bracketsFrom (opened : Nat × Nat) (marks : List Mark) : Nat × Nat :=
  marks.foldl (fun opened mark => bracketsBehind opened mark.glyph) opened

/-- The marks that stay in the text of a statement, from given open braces and parentheses on: a
newline outside of brackets and literals does not. -/
def keptFrom : Nat × Nat → List Mark → List Mark
  | _, [] => []
  | opened, mark :: rest =>
    if mark.isBreak && opened == (0, 0) then keptFrom opened rest
    else mark :: keptFrom (bracketsBehind opened mark.glyph) rest

/-- The text that is kept of marks. -/
def keptText (marks : List Mark) : List Char :=
  (keptFrom (0, 0) marks).map Mark.char

@[simp] theorem bracketsFrom_append (opened : Nat × Nat) (front back : List Mark) :
    bracketsFrom opened (front ++ back) = bracketsFrom (bracketsFrom opened front) back :=
  List.foldl_append

theorem keptFrom_append (opened : Nat × Nat) (front back : List Mark) :
    keptFrom opened (front ++ back) =
      keptFrom opened front ++ keptFrom (bracketsFrom opened front) back := by
  induction front generalizing opened with
  | nil => rfl
  | cons mark rest ih =>
    rw [List.cons_append, keptFrom, keptFrom]
    split_ifs with dropped
    · rw [Bool.and_eq_true] at dropped
      rw [ih]
      show _ = _ ++ keptFrom (bracketsFrom (bracketsBehind opened mark.glyph) rest) back
      rw [bracketsBehind_of_isBreak dropped.1]
    · rw [ih]
      rfl

theorem bracketsFrom_keptFrom (opened : Nat × Nat) (marks : List Mark) :
    bracketsFrom opened (keptFrom opened marks) = bracketsFrom opened marks := by
  induction marks generalizing opened with
  | nil => rfl
  | cons mark rest ih =>
    rw [keptFrom]
    split_ifs with dropped
    · rw [Bool.and_eq_true] at dropped
      rw [ih]
      show _ = bracketsFrom (bracketsBehind opened mark.glyph) rest
      rw [bracketsBehind_of_isBreak dropped.1]
    · exact ih _

theorem keptFrom_eq_append_cons {own : List Mark} {mark : Mark}
    (cut : keptFrom opened own = front ++ mark :: back) : ∃ before after,
      own = before ++ mark :: after ∧ keptFrom opened before = front ∧
        keptFrom (bracketsFrom opened (before ++ [mark])) after = back := by
  induction own generalizing opened front with
  | nil => simp [keptFrom] at cut
  | cons first rest ih =>
    rw [keptFrom] at cut
    split_ifs at cut with dropped
    · obtain ⟨before, after, rfl, kept, behind⟩ := ih cut
      refine ⟨first :: before, after, rfl, by rw [keptFrom, if_pos dropped, kept], ?_⟩
      rw [Bool.and_eq_true] at dropped
      rw [List.cons_append, ← behind]
      show keptFrom (bracketsFrom (bracketsBehind opened first.glyph) _) after = _
      rw [bracketsBehind_of_isBreak dropped.1]
    · rcases List.cons_eq_append_iff.mp cut with ⟨rfl, here⟩ | ⟨others, rfl, later⟩
      · obtain ⟨rfl, rfl⟩ := List.cons.inj here
        exact ⟨[], rest, rfl, rfl, rfl⟩
      · obtain ⟨before, after, rfl, kept, behind⟩ := ih later
        exact ⟨first :: before, after, rfl, by rw [keptFrom, if_neg dropped, kept], behind⟩

theorem keptText_concat_dropped {own : List Mark} {mark : Mark} (broken : mark.isBreak = true)
    (outer : bracketsFrom (0, 0) own = (0, 0)) : keptText (own ++ [mark]) = keptText own := by
  unfold keptText
  rw [keptFrom_append, outer, keptFrom, broken]
  simp [keptFrom]

theorem keptText_concat {own : List Mark} {mark : Mark}
    (stays : (mark.isBreak && bracketsFrom (0, 0) own == (0, 0)) = false) :
    keptText (own ++ [mark]) = keptText own ++ [mark.char] := by
  unfold keptText
  rw [keptFrom_append, keptFrom, stays]
  simp [keptFrom]

theorem keptText_ne_nil {own : List Mark} (first : ∀ mark ∈ own.head?, isBlank mark.char = false)
    (present : own ≠ []) : keptText own ≠ [] := by
  obtain ⟨mark, rest, rfl⟩ := List.exists_cons_of_ne_nil present
  have shown : mark.isBreak = false := by
    by_contra broken
    have blank := isBlank_of_isBreak (Bool.not_eq_false _ ▸ broken)
    rw [first mark rfl] at blank
    contradiction
  unfold keptText
  rw [keptFrom, shown]
  exact List.cons_ne_nil _ _

theorem keptText_concat_shown {own : List Mark} {mark : Mark} (shown : isBlank mark.char = false) :
    keptText (own ++ [mark]) = keptText own ++ [mark.char] := by
  refine keptText_concat ?_
  rw [Bool.and_eq_false_iff]
  left
  by_contra broken
  rw [isBlank_of_isBreak (Bool.not_eq_false _ ▸ broken)] at shown
  contradiction

theorem keptFrom_sublist (opened : Nat × Nat) (marks : List Mark) :
    (keptFrom opened marks).Sublist marks := by
  induction marks generalizing opened with
  | nil => exact List.Sublist.slnil
  | cons mark rest ih =>
    rw [keptFrom]
    split_ifs
    · exact (ih _).cons _
    · exact (ih _).cons_cons _

theorem trimEnd_keptText (own : List Mark) : ∃ front blanks, own = front ++ blanks ∧
    (∀ mark ∈ blanks, isBlank mark.char = true) ∧
    (∀ mark ∈ front.getLast?, isBlank mark.char = false) ∧
    trimEnd (keptText own) = keptText front := by
  induction own using List.reverseRecOn with
  | nil => exact ⟨[], [], rfl, nofun, nofun, rfl⟩
  | append_singleton marks mark ih =>
    cases blank : isBlank mark.char with
    | true =>
      obtain ⟨front, blanks, rfl, allBlank, last, text⟩ := ih
      refine ⟨front, blanks ++ [mark], by rw [List.append_assoc], ?_, last, ?_⟩
      · rw [List.forall_mem_append]
        exact ⟨allBlank, by simpa using blank⟩
      · rw [← text, trimEnd_eq_rdropWhile, trimEnd_eq_rdropWhile]
        cases stays : mark.isBreak && bracketsFrom (0, 0) (front ++ blanks) == (0, 0) with
        | true =>
          rw [Bool.and_eq_true, beq_iff_eq] at stays
          rw [keptText_concat_dropped stays.1 stays.2]
        | false => rw [keptText_concat stays, List.rdropWhile_concat_pos _ _ _ blank]
    | false =>
      refine ⟨marks ++ [mark], [], by rw [List.append_nil], nofun, by simp [blank], ?_⟩
      rw [keptText_concat_shown blank]
      exact trimEnd_eq_self (by simp [blank])

/-! ### Statements among marks -/

def Open (own : List Mark) : Prop :=
  ∀ front mark back, own = front ++ mark :: back → mark.ends (bracketsFrom (0, 0) front) = false

/-- No mark ends the statement but the last one. -/
def Unended (own : List Mark) : Prop :=
  ∀ front mark back, own = front ++ mark :: back → back ≠ [] →
    mark.ends (bracketsFrom (0, 0) front) = false

/-- Marks up to the end of a statement, and blanks behind it. -/
inductive Concluded : List Mark → Prop where
  | start : Concluded []
  | blank {earlier : List Mark} {mark : Mark} :
    Concluded earlier → isBlank mark.char = true → Concluded (earlier ++ [mark])
  | statement {earlier own : List Mark} {mark : Mark} :
    Concluded earlier → (∀ first ∈ own.head?, isBlank first.char = false) → Open own →
      mark.ends (bracketsFrom (0, 0) own) = true → Concluded (earlier ++ own ++ [mark])

theorem Open.nil : Open [] := by
  intro front mark back cut
  exact absurd cut.symm (by simp)

theorem Open.concat {own : List Mark} {mark : Mark} (isOpen : Open own)
    (inside : mark.ends (bracketsFrom (0, 0) own) = false) : Open (own ++ [mark]) := by
  intro front other back cut
  rcases List.eq_nil_or_concat back with rfl | ⟨rest, last, rfl⟩
  · obtain ⟨rfl, same⟩ := List.append_inj' cut rfl
    obtain rfl := (List.cons.inj same).1
    exact inside
  · rw [List.concat_eq_append, ← List.cons_append, ← List.append_assoc] at cut
    exact isOpen front other rest (List.append_inj' cut rfl).1

theorem Open.unended {own : List Mark} (isOpen : Open own) : Unended own :=
  fun front mark back cut _ => isOpen front mark back cut

theorem Open.unended_concat {own : List Mark} {mark : Mark} (isOpen : Open own) :
    Unended (own ++ [mark]) := by
  intro front other back cut present
  obtain ⟨rest, last, rfl⟩ := (List.eq_nil_or_concat back).resolve_left present
  rw [List.concat_eq_append, ← List.cons_append, ← List.append_assoc] at cut
  exact isOpen front other rest (List.append_inj' cut rfl).1

/-- Whether a word stands behind a mark, given whether one stands before it: a comment ends no
word. -/
def Mark.wordBehind (word : Bool) : Mark → Bool
  | .code c => isWordChar c
  | .literal _ | .escaped _ => false
  | .comment => word

/-- No newline outside of brackets breaks off a word, given whether a word stands before the marks
and what is open there. -/
def Unbroken : Bool → Nat × Nat → List Mark → Prop
  | _, _, [] => True
  | word, opened, mark :: rest =>
    (word = true → opened = (0, 0) → mark ≠ .code '\n') ∧
      Unbroken (mark.wordBehind word) (bracketsBehind opened mark.glyph) rest

theorem Mark.wordBehind_mono {mark : Mark} {word word' : Bool} (implies : word = true → word' = true)
    (behind : mark.wordBehind word = true) : mark.wordBehind word' = true := by
  cases mark with
  | comment => exact implies behind
  | _ => exact behind

theorem Unbroken.append_iff {word : Bool} :
    Unbroken word opened (front ++ back) ↔ Unbroken word opened front ∧
      Unbroken (front.foldl Mark.wordBehind word) (bracketsFrom opened front) back := by
  induction front generalizing word opened with
  | nil => exact ⟨fun known => ⟨trivial, known⟩, And.right⟩
  | cons mark rest ih =>
    rw [List.cons_append, Unbroken, ih, Unbroken, and_assoc]
    rfl

theorem Unended.of_append (unended : Unended (front ++ back)) : Unended front := by
  rintro before mark after rfl present
  exact unended before mark (after ++ back) (by simp) (by simp [present])

theorem Unended.open_of_append (unended : Unended (front ++ back)) (present : back ≠ []) :
    Open front := by
  rintro before mark after rfl
  exact unended before mark (after ++ back) (by simp) (by simp [present])

/-- Where a statement is cut out, and its line. -/
structure CutAt (line : Nat) (complete : Prop) (earlier own : List Mark) (statement : Statement) :
    Prop where
  text : statement.text = keptText own
  line : statement.line + escapes earlier = line + newlines earlier
  first : ∀ mark ∈ own.head?, isBlank mark.char = false
  last : ∀ mark ∈ own.getLast?, isBlank mark.char = false
  present : own ≠ []
  unbroken : Unbroken false (0, 0) own
  closed : complete → Concluded earlier
  unended : complete → Unended own

def Found (line : Nat) (marks : List Mark) (complete : Prop) (statement : Statement) : Prop :=
  ∃ earlier own later, marks = earlier ++ own ++ later ∧ CutAt line complete earlier own statement

/-- A missing semicolon at a newline among marks. -/
def ReportedAt (line : Nat) (marks : List Mark) (diagnostic : Diagnostic) : Prop :=
  ∃ earlier later, marks = earlier ++ .code '\n' :: later ∧
    diagnostic.line + escapes earlier = line + newlines earlier

theorem CutAt.imp {line : Nat} {earlier own : List Mark}
    (cut : CutAt line complete earlier own statement) (weaker : complete' → complete) :
    CutAt line complete' earlier own statement :=
  { cut with
    closed := fun holds => cut.closed (weaker holds)
    unended := fun holds => cut.unended (weaker holds) }

theorem Found.append {line : Nat} {marks : List Mark}
    (found : Found line marks complete statement) (weaker : complete' → complete)
    (more : List Mark) :
    Found line (marks ++ more) complete' statement := by
  obtain ⟨earlier, own, later, rfl, cut⟩ := found
  exact ⟨earlier, own, later ++ more, by simp, cut.imp weaker⟩

theorem ReportedAt.append {line : Nat} {marks : List Mark} {diagnostic : Diagnostic}
    (reported : ReportedAt line marks diagnostic) (more : List Mark) :
    ReportedAt line (marks ++ more) diagnostic := by
  obtain ⟨earlier, later, rfl, counted⟩ := reported
  exact ⟨earlier, later ++ more, by simp, counted⟩

/-! ### Words -/

namespace Splitter

variable {line : Nat} {marks earlier own : List Mark} {mark : Mark} {before after : Splitter}

theorem Keeps.word (keeps : Keeps before after mark)
    (behind : mark.wordBehind before.unfinished = true) : after.unfinished = true := by
  have finished := keeps.finished
  cases mark with
  | code c =>
    have other {d : Char} (sign : isWordChar d = false) : c ≠ d := by
      rintro rfl
      exact Bool.false_ne_true (sign.symm.trans behind)
    have shown : isBlank c = false := Bool.eq_false_iff.mpr fun blank =>
      Bool.false_ne_true ((isWordChar_of_isBlank blank).symm.trans behind)
    have decides : (Mark.code c).glyph.isSilent = false := by
      simp [Mark.glyph, Glyph.isSilent, shown, other (by decide : isWordChar '"' = false),
        other (by decide : isWordChar '(' = false), other (by decide : isWordChar ')' = false),
        other (by decide : isWordChar '\x7b' = false)]
    have leaves : (Mark.code c).glyph.finishes before.opened = false := by
      simp [Mark.glyph, Glyph.finishes, other (by decide : isWordChar '\x7d' = false),
        other (by decide : isWordChar ';' = false)]
    rw [decides, leaves] at finished
    rw [unfinished, keeps.fresh (.inr ⟨decides, leaves⟩), finished]
    rfl
  | literal c | escaped c => exact absurd behind Bool.false_ne_true
  | comment =>
    obtain ⟨fresh, open_⟩ := Bool.and_eq_true_iff.mp behind
    rw [unfinished, keeps.fresh (.inl fresh), finished]
    exact open_

theorem Drops.word (drops : Drops before after mark)
    (behind : mark.wordBehind before.unfinished = true) : after.unfinished = true := by
  rcases isBreak_iff.mp drops.broken with rfl | rfl
  · exact absurd (show isWordChar '\n' = true from behind) (by decide)
  · rw [drops.stays rfl]
    exact behind

/-! ### What has been found -/

/-- The marks of the statement being read, behind the earlier ones. -/
structure Pending (line : Nat) (splitter : Splitter) (earlier own : List Mark) : Prop where
  text : trimStart splitter.current.reverse = keptText own
  opened : bracketsFrom (0, 0) own = splitter.opened
  first : ∀ mark ∈ own.head?, isBlank mark.char = false
  startLine : splitter.startLine.getD splitter.line + escapes earlier = line + newlines earlier
  started : splitter.startLine = none ↔ own = []
  unbroken : Unbroken false (0, 0) own
  word : own.foldl Mark.wordBehind false = true → splitter.unfinished = true
  closed : splitter.diagnostics = [] → Concluded earlier
  isOpen : splitter.diagnostics = [] → Open own

/-- What the cutting has found is found in the marks. -/
structure Tracks (line : Nat) (marks : List Mark) (splitter : Splitter) : Prop where
  counted : splitter.line + escapes marks = line + newlines marks
  found : ∀ statement ∈ splitter.statements,
    Found line marks (splitter.diagnostics = []) statement
  reported : ∀ diagnostic ∈ splitter.diagnostics, ReportedAt line marks diagnostic
  pending : ∃ earlier own, marks = earlier ++ own ∧ Pending line splitter earlier own

theorem start_tracks (line : Nat) : Tracks line [] (start line) where
  counted := rfl
  found := nofun
  reported := nofun
  pending := ⟨[], [], rfl, rfl, rfl, nofun, rfl, by simp [start],
    trivial, nofun, fun _ => .start, fun _ => .nil⟩

theorem Pending.blank (pending : Pending line before earlier []) (blank : isBlank mark.char = true)
    (text : trimStart after.current.reverse = []) (opened : after.opened = before.opened)
    (startLine : after.startLine = none)
    (counted : after.line + escapes (earlier ++ [mark]) = line + newlines (earlier ++ [mark]))
    (diagnostics : after.diagnostics = before.diagnostics) :
    Pending line after (earlier ++ [mark]) [] where
  text := text
  opened := pending.opened.trans opened.symm
  first := nofun
  startLine := by rw [startLine]; exact counted
  started := by simp [startLine]
  unbroken := trivial
  word := nofun
  closed complete := .blank (pending.closed (diagnostics ▸ complete)) blank
  isOpen _ := .nil

theorem Pending.begin (pending : Pending line before earlier []) (keeps : Keeps before after mark)
    (shown : isBlank mark.char = false)
    (counted : before.line + escapes earlier = line + newlines earlier) :
    Pending line after earlier [mark] := by
  have blanks : trimStart before.current.reverse = [] := pending.text
  have starts : after.startLine = some before.line := by
    rw [keeps.startLine, shown, pending.started.mpr rfl]
    rfl
  refine ⟨?_, ?_, by simp [shown], by rw [starts]; exact counted, by simp [starts],
    ⟨fun never => absurd never Bool.false_ne_true, trivial⟩, ?_, ?_, ?_⟩
  · rw [keeps.current, List.reverse_cons, trimStart_concat (by simp [shown]), blanks]
    exact (@keptText_concat_shown [] mark shown).symm
  · rw [keeps.opened, ← pending.opened]
    rfl
  · exact fun behind =>
      keeps.word (Mark.wordBehind_mono (fun never => absurd never Bool.false_ne_true) behind)
  · exact fun complete => pending.closed (keeps.diagnostics ▸ complete)
  · refine fun complete => Open.nil.concat ?_
    rw [pending.opened]
    exact keeps.inside

theorem Pending.grow (pending : Pending line before earlier own) (present : own ≠ [])
    (inside : mark.ends before.opened = false)
    (text : trimStart after.current.reverse = keptText (own ++ [mark]))
    (opened : after.opened = bracketsBehind before.opened mark.glyph)
    (startLine : after.startLine = before.startLine)
    (diagnostics : after.diagnostics = before.diagnostics)
    (finished : before.opened = (0, 0) → mark = .code '\n' → before.unfinished = false)
    (word : mark.wordBehind before.unfinished = true → after.unfinished = true) :
    Pending line after earlier (own ++ [mark]) where
  text := text
  opened := by
    rw [bracketsFrom_append, pending.opened, opened]
    rfl
  first := by
    rw [List.head?_append_of_ne_nil _ present]
    exact pending.first
  startLine := by
    obtain ⟨first, known⟩ := Option.ne_none_iff_exists'.mp (mt pending.started.mp present)
    have counted := pending.startLine
    rw [startLine, known]
    rwa [known] at counted
  started := by
    rw [startLine, pending.started]
    simp [present]
  unbroken := by
    refine Unbroken.append_iff.mpr ⟨pending.unbroken, fun behind outer newline => ?_, trivial⟩
    rw [pending.opened] at outer
    exact absurd (pending.word behind) (by simp [finished outer newline])
  word := by
    rw [List.foldl_append, List.foldl_cons, List.foldl_nil]
    refine fun behind => word (Mark.wordBehind_mono pending.word behind)
  closed complete := pending.closed (diagnostics ▸ complete)
  isOpen complete := by
    refine (pending.isOpen (diagnostics ▸ complete)).concat ?_
    rw [pending.opened]
    exact inside

/-- Behind the end of a statement. -/
theorem Flushes.pending (flushes : Flushes before after read)
    (counted : after.line + escapes marks = line + newlines marks)
    (closed : after.diagnostics = [] → Concluded marks) : Pending line after marks [] where
  text := by rw [flushes.current]; rfl
  opened := flushes.opened.symm
  first := nofun
  startLine := by rw [flushes.startLine]; exact counted
  started := by simp [flushes.startLine]
  unbroken := trivial
  word := nofun
  closed := closed
  isOpen _ := .nil

theorem found_of_flushed (member : statement ∈ if trim read.reverse = [] then before.statements
      else ⟨trim read.reverse, before.startLine.getD before.line⟩ :: before.statements)
    (known : ∀ statement ∈ before.statements, Found line marks complete statement)
    (text : trimStart read.reverse = keptText own)
    (first : ∀ mark ∈ own.head?, isBlank mark.char = false)
    (counted : before.startLine.getD before.line + escapes earlier = line + newlines earlier)
    (unbroken : Unbroken false (0, 0) own) (closed : complete → Concluded earlier)
    (unended : complete → Unended own) (whole : marks = earlier ++ own) :
    Found line marks complete statement := by
  split_ifs at member with empty
  · exact known statement member
  · rcases List.mem_cons.mp member with rfl | others
    · obtain ⟨front, blanks, rfl, _, last, trimmed⟩ := trimEnd_keptText own
      have text : trim read.reverse = keptText front := by rw [trim, text, trimmed]
      have present : front ≠ [] := by
        rintro rfl
        exact empty text
      refine ⟨earlier, front, blanks, by rw [whole, List.append_assoc], text, counted, ?_, last,
        present, (Unbroken.append_iff.mp unbroken).1, closed,
        fun holds => (unended holds).of_append⟩
      intro mark member
      refine first mark ?_
      rwa [List.head?_append_of_ne_nil _ present]
    · exact known statement others

namespace Tracks

variable (tracks : Tracks line marks before)

include tracks

theorem found_flushed
    (member : statement ∈ if trim before.current.reverse = [] then before.statements
      else ⟨trim before.current.reverse, before.startLine.getD before.line⟩ :: before.statements) :
    Found line marks (before.diagnostics = []) statement := by
  obtain ⟨earlier, own, whole, pending⟩ := tracks.pending
  exact found_of_flushed member tracks.found pending.text pending.first pending.startLine
    pending.unbroken pending.closed (fun none => (pending.isOpen none).unended) whole

theorem found_concat (fewer : after.diagnostics = [] → before.diagnostics = []) :
    ∀ statement ∈ before.statements,
      Found line (marks ++ [mark]) (after.diagnostics = []) statement :=
  fun statement member => (tracks.found statement member).append fewer [mark]

theorem concat (counted : after.line + escapes (marks ++ [mark]) = line + newlines (marks ++ [mark]))
    (statements : after.statements = before.statements)
    (diagnostics : after.diagnostics = before.diagnostics)
    (pending : ∀ earlier own, marks = earlier ++ own → Pending line before earlier own →
      ∃ earlier own, marks ++ [mark] = earlier ++ own ∧ Pending line after earlier own) :
    Tracks line (marks ++ [mark]) after where
  counted := counted
  found := by
    rw [statements]
    exact tracks.found_concat fun complete => diagnostics ▸ complete
  reported := by
    rw [diagnostics]
    exact fun diagnostic member => (tracks.reported diagnostic member).append _
  pending := by
    obtain ⟨earlier, own, whole, read⟩ := tracks.pending
    exact pending earlier own whole read

theorem keep (keeps : Keeps before after mark) : Tracks line (marks ++ [mark]) after := by
  have counted : after.line + escapes (marks ++ [mark]) = line + newlines (marks ++ [mark]) := by
    have one := keeps.line
    have others := tracks.counted
    rw [escapes_append, newlines_append]
    omega
  have read : after.current.reverse = before.current.reverse ++ [mark.char] := by
    rw [keeps.current, List.reverse_cons]
  refine tracks.concat counted keeps.statements keeps.diagnostics ?_
  rintro earlier own rfl pending
  by_cases none : own = []
  · subst none
    have blanks : trimStart before.current.reverse = [] := pending.text
    have unstarted : before.startLine = Option.none := pending.started.mpr rfl
    cases blank : isBlank mark.char with
    | true =>
      refine ⟨earlier ++ [mark], [], by simp, pending.blank blank ?_ ?_ ?_ ?_ keeps.diagnostics⟩
      · rw [read, trimStart_append, if_pos blanks]
        simp [trimStart, blank]
      · rw [keeps.opened, bracketsBehind_of_isBlank blank]
      · rw [keeps.startLine, blank, unstarted]
        rfl
      · simpa using counted
    | false =>
      have before := tracks.counted
      rw [List.append_nil] at before
      exact ⟨earlier, [mark], by simp, pending.begin keeps blank before⟩
  · have visible : trimStart before.current.reverse ≠ [] := by
      rw [pending.text]
      exact keptText_ne_nil pending.first none
    have started : before.startLine.isNone = false := by
      rw [Option.isNone_eq_false_iff, Option.isSome_iff_ne_none]
      exact mt pending.started.mp none
    refine ⟨earlier, own ++ [mark], by simp,
      pending.grow none keeps.inside ?_ keeps.opened ?_ keeps.diagnostics ?_ keeps.word⟩
    · rw [read, trimStart_concat (fun empty => visible empty.1), pending.text, keptText_concat]
      rw [pending.opened]
      exact keeps.stays
    · rw [keeps.startLine, started]
      rfl
    · rintro outer rfl
      have stays := keeps.stays
      rw [outer] at stays
      exact absurd stays (by decide)

theorem drop (drops : Drops before after mark) : Tracks line (marks ++ [mark]) after := by
  have newline : newlines [mark] = 1 ∧ escapes [mark] = 0 := by
    rcases isBreak_iff.mp drops.broken with rfl | rfl <;> exact ⟨rfl, rfl⟩
  have counted : after.line + escapes (marks ++ [mark]) = line + newlines (marks ++ [mark]) := by
    have one := drops.line
    have others := tracks.counted
    rw [escapes_append, newlines_append]
    omega
  have blank := isBlank_of_isBreak drops.broken
  refine tracks.concat counted drops.statements drops.diagnostics ?_
  rintro earlier own rfl pending
  have text : trimStart after.current.reverse = keptText own := by
    rw [drops.current]
    exact pending.text
  by_cases none : own = []
  · subst none
    refine ⟨earlier ++ [mark], [], by simp, pending.blank blank text ?_ ?_ ?_ drops.diagnostics⟩
    · rw [drops.opened, drops.outer]
    · rw [drops.startLine]
      exact pending.started.mpr rfl
    · simpa using counted
  · refine ⟨earlier, own ++ [mark], by simp, pending.grow none (not_ends_of_isBlank blank _) ?_ ?_
      drops.startLine drops.diagnostics (fun _ newline => (drops.finished newline).1) drops.word⟩
    · rw [text, keptText_concat_dropped drops.broken]
      rw [pending.opened, drops.outer]
    · rw [drops.opened, drops.outer, bracketsBehind_of_isBlank blank]

theorem ends (ends : Ends before after mark) : Tracks line (marks ++ [mark]) after := by
  obtain ⟨earlier, own, rfl, pending⟩ := tracks.pending
  have which : mark = .code ';' ∨ mark = .code '}' :=
    (ends_iff.mp ends.ends).imp And.left And.left
  have single : newlines [mark] = 0 ∧ escapes [mark] = 0 := by
    rcases which with rfl | rfl <;> exact ⟨rfl, rfl⟩
  have counted : after.line + escapes (earlier ++ own ++ [mark]) =
      line + newlines (earlier ++ own ++ [mark]) := by
    have others := tracks.counted
    rw [ends.line, escapes_append _ [mark], newlines_append _ [mark], single.1, single.2]
    exact others
  have complete : after.diagnostics = [] → before.diagnostics = [] :=
    fun none => ends.diagnostics ▸ none
  refine ⟨counted, fun statement member => ?_, ?_, _, [], (List.append_nil _).symm,
    ends.flushes.pending counted fun none => ?_⟩
  · rw [ends.flushes.statements] at member
    rcases which with rfl | rfl
    · -- The semicolon is no part of the statement.
      exact (tracks.found_flushed member).append complete _
    · have text : trimStart ('}' :: before.current).reverse = keptText (own ++ [.code '}']) := by
        rw [List.reverse_cons, trimStart_concat (by simp [isBlank]), pending.text]
        exact (keptText_concat_shown (by decide : isBlank (Mark.code '}').char = false)).symm
      refine found_of_flushed member (tracks.found_concat complete) text ?_ pending.startLine
        (Unbroken.append_iff.mpr ⟨pending.unbroken, fun _ _ => by decide, trivial⟩)
        (fun none => pending.closed (complete none))
        (fun none => (pending.isOpen (complete none)).unended_concat) (by simp)
      cases own with
      | nil => simp [isBlank, Mark.char]
      | cons mark rest => exact pending.first
  · rw [ends.diagnostics]
    exact fun diagnostic member => (tracks.reported diagnostic member).append _
  · refine .statement (pending.closed (complete none)) pending.first
      (pending.isOpen (complete none)) ?_
    rw [pending.opened]
    exact ends.ends

theorem report (reports : Reports before after mark) : Tracks line (marks ++ [mark]) after := by
  obtain ⟨earlier, own, rfl, pending⟩ := tracks.pending
  have counted : after.line + escapes (earlier ++ own ++ [mark]) =
      line + newlines (earlier ++ own ++ [mark]) := by
    have others := tracks.counted
    have one := reports.line
    have single : newlines [mark] = 1 ∧ escapes [mark] = 0 := by
      rw [reports.newline]
      exact ⟨rfl, rfl⟩
    rw [escapes_append _ [mark], newlines_append _ [mark]]
    omega
  have incomplete : after.diagnostics ≠ [] := by
    rw [reports.diagnostics]
    exact List.cons_ne_nil _ _
  refine ⟨counted, fun statement member => ?_, ?_, _, [], (List.append_nil _).symm,
    reports.flushes.pending counted fun none => absurd none incomplete⟩
  · rw [reports.flushes.statements] at member
    exact (tracks.found_flushed member).append (fun none => absurd none incomplete) _
  · rw [reports.diagnostics]
    refine List.forall_mem_cons.mpr ⟨⟨earlier ++ own, [], by rw [reports.newline], ?_⟩, ?_⟩
    · exact tracks.counted
    · exact fun diagnostic member => (tracks.reported diagnostic member).append _

/-- **One mark** is one step in the marks. -/
theorem take (mark : Mark) : Tracks line (marks ++ [mark]) (before.take mark) := by
  rcases take_cases before mark with keeps | drops | ends | reports
  · exact tracks.keep keeps
  · exact tracks.drop drops
  · exact tracks.ends ends
  · exact tracks.report reports

end Tracks

/-- **The cutting of marks** finds what stands among them. -/
theorem foldl_take_tracks (line : Nat) (marks : List Mark) :
    Tracks line marks (marks.foldl Splitter.take (start line)) := by
  induction marks using List.reverseRecOn with
  | nil => exact start_tracks line
  | append_singleton front mark ih =>
    rw [List.foldl_append]
    exact ih.take mark

end Splitter

open Splitter

/-- **Where the statements of a text stand.** -/
theorem splitStatements_found (text : List Char) (line : Nat) :
    ∀ statement ∈ (splitStatements text line).1,
      Found line (marks .code text) ((splitStatements text line).2 = []) statement := by
  have tracks := foldl_take_tracks line (marks .code text)
  rw [splitStatements_eq_marks]
  intro statement member
  rw [List.mem_reverse, flush_statements] at member
  rw [List.reverse_eq_nil_iff]
  exact tracks.found_flushed member

/-- **Where semicolons are missing.** -/
theorem splitStatements_reported (text : List Char) (line : Nat) :
    ∀ diagnostic ∈ (splitStatements text line).2, ReportedAt line (marks .code text) diagnostic := by
  rw [splitStatements_eq_marks]
  intro diagnostic member
  exact (foldl_take_tracks line _).reported diagnostic (List.mem_reverse.mp member)

theorem length_of_mem_splitStatements {text : List Char} {line : Nat}
    (member : statement ∈ (splitStatements text line).1) :
    statement.text.length ≤ text.length := by
  obtain ⟨earlier, own, later, whole, cut⟩ := splitStatements_found text line statement member
  calc statement.text.length = (keptFrom (0, 0) own).length := by
        rw [cut.text, keptText, List.length_map]
    _ ≤ own.length := (keptFrom_sublist _ _).length_le
    _ ≤ (marks .code text).length := by
        rw [whole, List.length_append, List.length_append]
        omega
    _ ≤ text.length := length_marks_le _ _

end TypedScript
