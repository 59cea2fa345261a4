/-
**Calls carry their lines.** A statement that is a call of a name stands where the name stands. If the
name stands at one place of a script only, the line of the call is that of the place, but for the
newlines before it that are lost.
-/

import TypedScript.Proofs.Lines.Layers
import TypedScript.Proofs.Parsing.Commands

namespace TypedScript

open Text

variable {name : String} {own rest earlier : List Mark} {mark : Mark} {c : Char}
  {skipped before : List Char}

/-! ### Places of a name -/

def shownMarks (marks : List Mark) : List Mark :=
  marks.filter fun mark => mark != .comment

def endsWord (mark? : Option Mark) : Bool :=
  mark?.all fun mark => !isWordChar mark.char

/-- Whether a name stands at a place of a script as a whole word, outside of literals, in the script
without its comments. -/
def standsAt (name : String) (source : List Char) (offset : Nat) : Bool :=
  let word := name.toList.map Mark.code
  let before := marks .code (source.take offset)
  let behind := shownMarks ((marks .code source).drop before.length)
  marks .code (source.take (offset + 1)) == before ++ word.take 1 &&
    endsWord (shownMarks before).getLast? && word.isPrefixOf behind &&
      endsWord (behind.drop word.length).head?

/-- Where a name stands in a script, outside of comments and literals. -/
def places (name : String) (source : List Char) : List Nat :=
  (List.range source.length).filter (standsAt name source)

theorem shownMarks_append (front back : List Mark) :
    shownMarks (front ++ back) = shownMarks front ++ shownMarks back :=
  List.filter_append ..

/-- **A word among marks** stands at one of the places of the name. -/
theorem exists_place {source : List Char} {front : List Mark}
    (found : marks .code source = front ++ own)
    (left : endsWord (shownMarks front).getLast? = true) {first : Char} {others : List Char}
    (spelling : name.toList = first :: others) (starts : own.head? = some (.code first))
    (word : shownMarks own = name.toList.map Mark.code ++ mark :: rest)
    (right : isWordChar mark.char = false) :
    ∃ offset ∈ places name source, marks .code (source.take offset) = front ∧
      (source.take offset).count '\n' = newlines front := by
  obtain ⟨more, rfl⟩ := List.head?_eq_some_iff.mp starts
  obtain ⟨before, after, rfl, inside, next, count⟩ := marks_eq_append_cons found
  have here : (before ++ (Mark.code first).char :: after).take before.length = before :=
    List.take_left
  have beyond : (before ++ (Mark.code first).char :: after).take (before.length + 1) =
      before ++ [first] := by
    rw [List.append_cons, List.take_left' (by simp)]
    rfl
  refine ⟨before.length, List.mem_filter.mpr ⟨?_, ?_⟩, by rw [here, inside], by rw [here, count]⟩
  · simp
  · have started : marks .code (before ++ [first]) = front ++ [.code first] := next
    simp only [standsAt, here, beyond, inside, found, started, List.drop_left, word, spelling,
      List.map_cons, List.take_succ_cons, List.take_zero, left, beq_self_eq_true, Bool.true_and,
      Bool.and_eq_true]
    refine ⟨?_, ?_⟩
    · rw [List.isPrefixOf_iff_prefix]
      exact List.prefix_append _ _
    · simp [endsWord, right]

/-! ### A name at the start of a statement -/

theorem head?_keptText_code (other : c ≠ '\n') (rest : List Mark) :
    (keptText (.code c :: rest)).head? = some c := by
  have stays : (Mark.code c).isBreak = false := by simp [Mark.isBreak, other]
  rw [keptText, keptFrom, stays]
  rfl

theorem code_of_leading (leading : isWordChar c = true ∨ isBlank c = true) (other : c ≠ '\n')
    (quoted : Quoted .outside (.code c :: rest)) :
    Quoted .outside rest ∧ bracketsBehind (0, 0) (Mark.code c).glyph = (0, 0) ∧
      keptText (.code c :: rest) = c :: keptText rest := by
  have signs : c ≠ '{' ∧ c ≠ '}' ∧ c ≠ '(' ∧ c ≠ ')' ∧ c ≠ '"' := by
    refine ⟨?_, ?_, ?_, ?_, ?_⟩ <;>
    · rintro rfl
      exact absurd leading (by decide)
  have brackets : bracketsBehind (0, 0) (Mark.code c).glyph = (0, 0) := by
    simp [bracketsBehind, Mark.glyph, signs]
  have quote : Quote.outside.step c = .outside := by simp [Quote.step, signs]
  have stays : (Mark.code c).isBreak = false := by simp [Mark.isBreak, other]
  refine ⟨quote ▸ quoted.2, brackets, ?_⟩
  rw [keptText, keptFrom, stays, brackets]
  rfl

/-- **Behind a word**, nothing but comments stands between the marks of the text up to the end of the
word. -/
theorem shownMarks_of_unbroken {nested : Bool} (quoted : Quoted .outside own)
    (unbroken : Unbroken true (0, 0) (own.map (Mark.seen nested))) {word rest : List Char}
    (text : keptText own = word ++ c :: rest) (all : ∀ d ∈ word, isWordChar d = true)
    (other : isWordChar c = false) :
    ∃ mark back, shownMarks own = word.map Mark.code ++ mark :: back ∧
      isWordChar mark.char = false := by
  induction own generalizing word with
  | nil => exact absurd text.symm (by simp [keptText, keptFrom])
  | cons mark more ih =>
    obtain ⟨goesOn, later⟩ := unbroken
    cases mark with
    | comment =>
      cases nested with
      -- In a block, a comment with a newline ends a word as the newline does.
      | true => exact absurd rfl (goesOn rfl rfl)
      | false => exact ih quoted.2 later text all
    | code d =>
      have newline : d ≠ '\n' := fun same => goesOn rfl rfl (by rw [same]; rfl)
      have head : (word ++ c :: rest).head? = some d := text ▸ head?_keptText_code newline _
      cases word with
      | nil =>
        obtain rfl := Option.some.inj head
        exact ⟨.code c, shownMarks more, rfl, other⟩
      | cons e word =>
        obtain rfl := Option.some.inj head
        obtain ⟨isWord, others⟩ := List.forall_mem_cons.mp all
        obtain ⟨behind, brackets, kept⟩ := code_of_leading (.inl isWord) newline quoted
        change Unbroken (isWordChar e) (bracketsBehind (0, 0) (Mark.code e).glyph) _ at later
        rw [isWord, brackets] at later
        obtain ⟨mark, back, shown, ends⟩ :=
          ih behind later (List.cons.inj (kept.symm.trans text)).2 others
        exact ⟨mark, back, congrArg (Mark.code e :: ·) shown, ends⟩
    | literal d | escaped d => exact absurd quoted.1 (by simp [Mark.place])

/-- A statement that starts with a name has its marks. -/
theorem exists_word {nested : Bool} (quoted : Quoted .outside own)
    (unbroken : Unbroken false (0, 0) (own.map (Mark.seen nested)))
    (shown : ∀ mark ∈ own.head?, isBlank mark.char = false)
    (starts : StartsWith (keptText own) name) :
    ∃ first others mark back, name.toList = first :: others ∧ own.head? = some (.code first) ∧
      shownMarks own = name.toList.map Mark.code ++ mark :: back ∧ isWordChar mark.char = false := by
  obtain ⟨present, all, c, rest, cut, other⟩ := starts
  obtain ⟨first, others, spelling⟩ : ∃ first others, name.toList = first :: others :=
    List.exists_cons_of_ne_nil fun none => present (String.toList_eq_nil_iff.mp none)
  rw [spelling] at all cut ⊢
  obtain ⟨isWord, remaining⟩ := List.forall_mem_cons.mp all
  cases own with
  | nil => exact absurd cut (by simp [keptText, keptFrom, trimStart])
  | cons mark more =>
    have visible := shown mark rfl
    cases mark with
    | comment => exact absurd visible (by decide)
    | code d =>
      have newline : d ≠ '\n' := by
        rintro rfl
        exact absurd visible (by decide)
      have head := head?_keptText_code newline more
      rw [trimStart_eq_self] at cut
      · obtain rfl : d = first := by
          have same := congrArg List.head? cut
          exact Option.some.inj (head.symm.trans same)
        obtain ⟨behind, brackets, kept⟩ := code_of_leading (.inl isWord) newline quoted
        have later := unbroken.2
        change Unbroken (isWordChar d) (bracketsBehind (0, 0) (Mark.code d).glyph) _ at later
        rw [isWord, brackets] at later
        obtain ⟨mark, back, shown, ends⟩ := shownMarks_of_unbroken behind later
          (List.cons.inj (kept.symm.trans cut)).2 remaining other
        exact ⟨d, others, mark, back, rfl, rfl, congrArg (Mark.code d :: ·) shown, ends⟩
      · intro c member
        obtain rfl := Option.some.inj (head.symm.trans member)
        exact visible
    | literal d | escaped d => exact absurd quoted.1 (by simp [Mark.place])

theorem count_of_leading (quoted : Quoted .outside own) (text : keptText own = skipped ++ before)
    (leading : Leading skipped) :
    skipped.count '\n' = 0 := by
  induction own generalizing skipped with
  | nil =>
    have none : skipped ++ before = [] := text.symm
    rw [(List.append_eq_nil_iff.mp none).1]
    rfl
  | cons mark rest ih =>
    cases mark with
    | comment => exact ih quoted.2 text leading
    | code c =>
      by_cases newline : c = '\n'
      · subst newline
        exact ih quoted.2 text leading
      · cases skipped with
        | nil => rfl
        | cons d skipped =>
          have head := head?_keptText_code newline rest
          rw [text] at head
          obtain rfl := Option.some.inj head
          obtain ⟨first, others⟩ := List.forall_mem_cons.mp leading
          obtain ⟨behind, _, kept⟩ := code_of_leading first newline quoted
          rw [List.count_cons_of_ne newline]
          exact ih behind (List.cons.inj (kept.symm.trans text)).2 others
    | literal c | escaped c => exact absurd quoted.1 (by simp [Mark.place])

/-! ### Texts that stand in a script -/

def ShortBy (dropped restarted line passed : Nat) : Prop :=
  line + dropped ≤ 1 + passed ∧ 1 + passed ≤ line + dropped + restarted

def CalledAt (source : List Char) (name : String) (line : Nat) : Prop :=
  ∃ offset ∈ places name source, ShortBy (droppedIn (marks .code (source.take offset)))
    (restartedIn (marks .code (source.take offset))) line ((source.take offset).count '\n')

/-- Where a statement is cut out, and its line. -/
structure StatementAt (line : Nat) (nested : Bool) (earlier own : List Mark) (statement : Statement) :
    Prop where
  text : statement.text = keptText own
  line : statement.line + escapes earlier = line + newlines earlier
  closed : Concluded earlier
  first : ∀ mark ∈ own.head?, isBlank mark.char = false
  unended : Unended own
  quoted : Quoted .outside own
  unbroken : Unbroken false (0, 0) (own.map (Mark.seen nested))

/-- A text that stands in a script, and the newlines that were lost before it. -/
structure Within (source text : List Char) (line : Nat) (front inside : List Mark) (nested : Bool)
    (dropped restarted : Nat) : Prop where
  whole : ∃ back, marks .code source = front ++ (inside ++ back)
  text : marks .code text = inside.map (Mark.seen nested)
  apart : endsWord (shownMarks front).getLast? = true
  lost : ∀ part, part <+: inside → droppedIn (front ++ part) = dropped + droppedIn part ∧
    restartedIn (front ++ part) = restarted + restartedIn part
  line : ShortBy dropped restarted line (newlines front)

theorem within_source (source : List Char) :
    Within source source 1 [] (marks .code source) false 0 0 where
  whole := ⟨[], (List.append_nil _).symm⟩
  text := (List.map_id'' Mark.seen_false _).symm
  apart := rfl
  lost _ _ := ⟨(Nat.zero_add _).symm, (Nat.zero_add _).symm⟩
  line := ⟨le_rfl, le_rfl⟩

theorem endsWord_concat {list : List Mark} (shown : mark ≠ .comment)
    (other : isWordChar mark.char = false) :
    endsWord (shownMarks (list ++ [mark])).getLast? = true := by
  have single : shownMarks [mark] = [mark] := by simp [shownMarks, shown]
  rw [shownMarks_append, single, List.getLast?_concat]
  simp [endsWord, other]

theorem Concluded.endsWord (concluded : Concluded earlier) {front : List Mark}
    (apart : endsWord (shownMarks front).getLast? = true) :
    endsWord (shownMarks (front ++ earlier)).getLast? = true := by
  induction concluded with
  | start => rwa [List.append_nil]
  | @blank earlier mark _ blank ih =>
    rw [← List.append_assoc]
    by_cases comment : mark = .comment
    · rw [comment, shownMarks_append]
      exact (List.append_nil _).symm ▸ ih
    · exact endsWord_concat comment (isWordChar_of_isBlank blank)
  | statement _ _ _ ends =>
    rw [← List.append_assoc]
    rcases Splitter.ends_iff.mp ends with ⟨rfl, _⟩ | ⟨rfl, _⟩
    · exact endsWord_concat (by decide) (by decide)
    · exact endsWord_concat (by decide) (by decide)

section Within

variable {source text : List Char} {line : Nat} {front inside : List Mark} {nested : Bool}
  {dropped restarted : Nat} {statement : Statement}

theorem Within.cut (within : Within source text line front inside nested dropped restarted)
    (member : statement ∈ (splitStatements text line).1)
    (complete : (splitStatements text line).2 = []) :
    ∃ earlier own later, inside = earlier ++ (own ++ later) ∧
      StatementAt line nested earlier own statement := by
  obtain ⟨earlier, own, later, whole, cut⟩ := splitStatements_found text line statement member
  have quoted : Quoted .outside (marks .code text) := quoted_marks .code text
  rw [whole, List.append_assoc] at quoted
  obtain ⟨before, behind⟩ := Quoted.append_iff.mp quoted
  rw [(cut.closed complete).outside before] at behind
  rw [within.text, List.append_assoc] at whole
  obtain ⟨earlier, rest, rfl, rfl, more⟩ := List.map_eq_append_iff.mp whole
  obtain ⟨own, later, rfl, rfl, rfl⟩ := List.map_eq_append_iff.mp more
  have counted := cut.line
  rw [escapes_map_seen, newlines_map_seen] at counted
  exact ⟨earlier, own, later, rfl, cut.text.trans (keptText_map_seen nested own), counted,
    (cut.closed complete).of_map_seen nested, first_of_map_seen nested cut.first,
    (cut.unended complete).of_map_seen nested, (Quoted.append_iff.mp behind).1.of_map_seen nested,
    cut.unbroken⟩

/-- **A call stands where its name stands.** -/
theorem Within.call (within : Within source text line front inside nested dropped restarted)
    (member : statement ∈ (splitStatements text line).1)
    (complete : (splitStatements text line).2 = []) (starts : StartsWith statement.text name) :
    CalledAt source name statement.line := by
  obtain ⟨earlier, own, later, rfl, stands⟩ := within.cut member complete
  obtain ⟨back, whole⟩ := within.whole
  rw [stands.text] at starts
  obtain ⟨first, others, mark, rest, spelling, head, word, ends⟩ :=
    exists_word stands.quoted stands.unbroken stands.first starts
  have found : marks .code source = (front ++ earlier) ++ (own ++ (later ++ back)) := by
    rw [whole]
    simp only [List.append_assoc]
  obtain ⟨offset, placed, before, count⟩ := exists_place found
    (stands.closed.endsWord within.apart) spelling (by rw [List.head?_append, head]; rfl)
    (by rw [shownMarks_append, word, List.append_assoc, List.cons_append]) ends
  refine ⟨offset, placed, ?_⟩
  obtain ⟨lostHere, lostBefore⟩ := within.lost earlier (List.prefix_append _ _)
  rw [before, count, lostHere, lostBefore, droppedIn_of_concluded stands.closed,
    restartedIn_of_concluded stands.closed, newlines_append]
  obtain ⟨lower, upper⟩ := within.line
  have counted := stands.line
  constructor <;> omega

theorem ShortBy.header {header : List Mark} {passed : Nat}
    (short : ShortBy dropped restarted line passed)
    (counted : statement.line + escapes earlier = line + newlines earlier)
    (quoted : Quoted .outside header) (text : keptText header = skipped ++ before)
    (kind : EndsInArrow before ∨ Leading skipped) :
    ShortBy (dropped + (escapes earlier + (newlines header - newlines (keptFrom (0, 0) header))))
      (restarted + newlinesBeforeLambda (keptText header)) (statement.line + before.count '\n')
      (passed + newlines earlier + newlines header) := by
  have kept : newlines (keptFrom (0, 0) header) = skipped.count '\n' + before.count '\n' := by
    rw [← count_map_char, ← List.count_append, ← text]
    rfl
  have fewer : newlines (keptFrom (0, 0) header) ≤ newlines header :=
    (keptFrom_sublist _ _).countP_le
  have passedOver : skipped.count '\n' ≤ newlinesBeforeLambda (keptText header) := by
    rcases kind with arrow | leading
    · rw [text]
      exact count_le_newlinesBeforeLambda arrow
    · rw [count_of_leading quoted text leading]
      exact Nat.zero_le _
  obtain ⟨lower, upper⟩ := short
  constructor <;> omega

/-- **A block of a statement** stands within the script. -/
theorem Within.block (within : Within source text line front inside nested dropped restarted)
    (member : statement ∈ (splitStatements text line).1)
    (complete : (splitStatements text line).2 = []) {interior : List Char}
    (located : BlockAt statement.text (skipped ++ before) interior)
    (kind : EndsInArrow before ∨ Leading skipped) :
    ∃ front inside dropped restarted, Within source interior (statement.line + before.count '\n')
      front inside true dropped restarted := by
  obtain ⟨earlier, own, later, rfl, stands⟩ := within.cut member complete
  obtain ⟨back, whole⟩ := within.whole
  rw [stands.text] at located
  obtain ⟨header, inside, block⟩ := exists_block stands.quoted located
  obtain ⟨rest, rfl⟩ := block.whole
  have isOpen : Open header := stands.unended.open_of_append (List.cons_ne_nil _ _)
  have first : ∀ mark ∈ header.head?, isBlank mark.char = false := by
    intro mark head
    refine stands.first mark ?_
    rw [List.head?_append, Option.mem_def.mp head]
    rfl
  have count : newlines (front ++ (earlier ++ (header ++ [.code '{']))) =
      newlines front + newlines earlier + newlines header := by
    simp only [newlines_append, Nat.add_assoc]
    rfl
  have line := within.line.header stands.line (Quoted.append_iff.mp stands.quoted).1 block.text kind
  rw [← count] at line
  -- The layer of the statement goes on changing inside the block, but what it loses is settled.
  refine ⟨front ++ (earlier ++ (header ++ [.code '{'])), inside, _, _,
    ⟨rest ++ (later ++ back), by rw [whole]; simp⟩, ?_, ?_, fun part short => ?_, line⟩
  · have apart := apart_marks .code source
    rw [whole] at apart
    have chain := apart.right_of_append.left_of_append.right_of_append.left_of_append
    rw [← block.chars]
    exact marks_map_char block.quoted chain.right_of_append.tail.left_of_append
  · rw [← List.append_assoc, ← List.append_assoc]
    exact endsWord_concat (by decide) (by decide)
  · have placed : front ++ (earlier ++ (header ++ [.code '{'])) ++ part =
        front ++ (earlier ++ (header ++ .code '{' :: part)) := by simp
    obtain ⟨inBlock, inLambda⟩ :=
      lost_block stands.closed isOpen first block.closed (block.enclosed.of_prefix short)
    obtain ⟨lostHere, lostBefore⟩ := within.lost (earlier ++ (header ++ .code '{' :: part)) (by
      obtain ⟨more, rfl⟩ := short
      exact ⟨more ++ rest ++ later, by simp⟩)
    rw [placed, lostHere, lostBefore, inBlock, inLambda]
    exact ⟨(Nat.add_assoc ..).symm, (Nat.add_assoc ..).symm⟩

/-- **Every call of a text within a script** stands where its name stands. -/
theorem bodyGood_of_within (within : Within source text line front inside nested dropped restarted) :
    BodyGood (fun _ => True) (fun spot => ∀ name ∈ spot.callee, CalledAt source name spot.line)
      text line := by
  induction length : text.length using Nat.strong_induction_on
    generalizing text line front inside nested dropped restarted with
  | _ bound ih =>
    refine .of_statements (fun _ _ => trivial) fun statement member => ⟨fun _ => trivial, ?_, ?_⟩
    · exact fun callee starts complete name called =>
        within.call member complete (starts name called)
    · intro skipped before interior located kind
      by_cases complete : (splitStatements text line).2 = []
      · obtain ⟨_, _, _, _, deeper⟩ := within.block member complete located kind
        have shorter := located.length_lt
        have fits := length_of_mem_splitStatements member
        exact (ih interior.length (by omega) deeper rfl).imp fun _ known _ => known
      · -- With a semicolon missing nothing is read, so that nothing is to show.
        exact (bodyGood_any interior _).imp fun _ _ holds => absurd holds complete

end Within

/-- **The line of a call.** If a name stands at one place of a script, a statement that calls it is on
the line of this place, but that its line is short of the newlines before it that are dropped: those
behind a backslash in an earlier statement of a block around it, and those outside of brackets and
literals in the header of such a block. If such a block is that of a lambda, it may be short of the
newlines before the lambda in its statement as well, and of no others. -/
theorem call_line {source : List Char} {name : String} {offset line : Nat}
    (once : places name source = [offset])
    (called : ⟨line, some name⟩ ∈ bodySpots (parse source).statements) :
    let before := source.take offset
    let dropped := droppedIn (marks .code before)
    let restarted := restartedIn (marks .code before)
    line + dropped ≤ 1 + before.count '\n' ∧ 1 + before.count '\n' ≤ line + dropped + restarted := by
  intro before dropped restarted
  obtain ⟨_, spots⟩ := parse_good (bodyGood_of_within (within_source source))
  obtain ⟨place, member, short⟩ := spots _ called name rfl
  rw [once, List.mem_singleton] at member
  rw [member] at short
  exact short

/-- A call in a lambda in a loop in the second branch of an `if` in a function, and a call in a
lambda on another line than its statement, behind a literal with an escaped newline. -/
theorem call_line_nested :
    let source := ("func void f() \x7b\n if (true) \x7b\n \x7d else if (g(\n1)) \x7b\n" ++
      "while (true) \x7b\n h(() => \x7b\n /* m\n */ m(\"m\");\n \x7d);\n \x7d\n \x7d\n\x7d").toList
    let further := "f(\"a\\\nb\");\ng(1,\n() => \x7bm();\x7d);".toList
    (places "m" source = [86] ∧ ⟨8, some "m"⟩ ∈ bodySpots (parse source).statements ∧
      8 = 1 + (source.take 86).count '\n') ∧
    (places "m" further = [23] ∧ ⟨2, some "m"⟩ ∈ bodySpots (parse further).statements ∧
      2 + 1 ≤ 1 + (further.take 23).count '\n' ∧ 1 + (further.take 23).count '\n' ≤ 2 + 1 + 1) := by
  intro source further
  have once : places "m" source = [86] := by decide +kernel
  have called : ⟨8, some "m"⟩ ∈ bodySpots (parse source).statements := by decide +kernel
  have none : droppedIn (marks .code (source.take 86)) = 0 ∧
      restartedIn (marks .code (source.take 86)) = 0 := by decide +kernel
  have onceFurther : places "m" further = [23] := by decide +kernel
  have calledFurther : ⟨2, some "m"⟩ ∈ bodySpots (parse further).statements := by decide +kernel
  have lost : droppedIn (marks .code (further.take 23)) = 1 ∧
      restartedIn (marks .code (further.take 23)) = 1 := by decide +kernel
  have exact_line := call_line once called
  have bounds := call_line onceFurther calledFurther
  dsimp only at exact_line bounds
  rw [none.1, none.2] at exact_line
  rw [lost.1, lost.2] at bounds
  exact ⟨⟨once, called, le_antisymm exact_line.1 exact_line.2⟩, onceFurther, calledFurther, bounds⟩

/-- **A call in a lambda may carry a line that is too small**, though nothing is wrong with the
script: the newline before the lambda is not counted. -/
theorem lambda_call_misplaced :
    let source := "f(1,\n() => \x7bm();\x7d);".toList
    (parse source).diagnostics = [] ∧ places "m" source = [12] ∧
      ⟨1, some "m"⟩ ∈ bodySpots (parse source).statements ∧
        1 + (source.take 12).count '\n' = 2 := by
  decide +kernel

end TypedScript
