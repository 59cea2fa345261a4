/-
**Regions and arguments.** A region ends at the bracket that closes it, and arguments are cut at
commas outside of brackets and literals. Taking a region counts brackets of one kind, cutting
arguments counts those of all kinds together. The second count is the sum of the first ones.
-/

import TypedScript.Proofs.Printing.Declarations

namespace TypedScript

open Text

variable {c opener closer : Char} {text front back : List Char} {quote : Quote} {depth : Int}

/-! ### Regions -/

/-- A text that closes its literals and its brackets of one kind, and no bracket before it. -/
def Closes (opener closer : Char) (text : List Char) : Prop :=
  text.foldlM (bracketStep opener closer) (.outside, 0) = some (.outside, 0)

instance : Decidable (Closes opener closer text) :=
  inferInstanceAs (Decidable (_ = _))

theorem balanced_eq_some_iff {interior rest : List Char} (distinct : closer ≠ opener)
    (noQuote : closer ≠ '"') :
    balanced opener closer text = some (interior, rest) ↔
      text = opener :: (interior ++ closer :: rest) ∧ Closes opener closer interior := by
  cases text with
  | nil => simp [balanced]
  | cons first more =>
    rw [balanced_cons, List.cons.injEq, and_assoc]
    split_ifs with opened
    · rw [balancedTail_eq_some_iff distinct noQuote]
      exact ⟨fun found => ⟨opened, found⟩, fun found => found.2⟩
    · exact iff_of_false (by simp) fun found => opened found.1

/-- **A region is taken exactly**: it is the text between the opening bracket at the cursor and the
first bracket that closes it, and the cursor moves behind that bracket. If there is none, the cursor
stays in front of any other character and runs to the end of an open region. -/
theorem takeBalanced_exact (distinct : closer ≠ opener) (noQuote : closer ≠ '"')
    (cursor : Cursor) :
    (∀ interior after, cursor.takeBalanced opener closer = (some interior, after) ↔
      Closes opener closer interior ∧
        cursor.ahead = opener :: (interior ++ closer :: after.ahead) ∧
        after.passed = (opener :: (interior ++ [closer])).reverse ++ cursor.passed) ∧
    ((cursor.takeBalanced opener closer).1 = none →
      (cursor.takeBalanced opener closer).2 =
        if cursor.peek 0 = some opener then ⟨cursor.ahead.reverse ++ cursor.passed, []⟩
        else cursor) := by
  refine ⟨fun interior after => ⟨fun taken => ?_, ?_⟩, fun none => ?_⟩
  · obtain ⟨cut, whole, passed⟩ := Cursor.takeBalanced_eq_some taken
    exact ⟨((balanced_eq_some_iff distinct noQuote).mp cut).2, whole, passed⟩
  · rintro ⟨closes, whole, passed⟩
    have cut := (balanced_eq_some_iff distinct noQuote).mpr ⟨whole, closes⟩
    have taken : cursor.takeBalanced opener closer =
        (some interior, cursor.advance (interior.length + 2)) := by
      rw [Cursor.takeBalanced, cut]
    obtain ⟨_, whole', passed'⟩ := Cursor.takeBalanced_eq_some taken
    have ahead := whole'.symm.trans whole
    rw [List.cons.injEq, List.append_cancel_left_eq, List.cons.injEq] at ahead
    have same : cursor.advance (interior.length + 2) = after := by
      cases after
      exact Cursor.mk.injEq .. ▸ ⟨passed'.trans passed.symm, ahead.2.2⟩
    rw [taken, same]
  · unfold Cursor.takeBalanced at none ⊢
    split
    · rename_i cut
      rw [cut] at none
      contradiction
    · split_ifs
      · simp [Cursor.advance]
      · rfl

/-- A closing bracket in a literal and one of an inner region do not end the region. -/
theorem takeBalanced_exact_nested :
    (Cursor.start "(f(\")\"))x".toList).takeBalanced '(' ')' =
      (some "f(\")\")".toList, ⟨"(f(\")\"))".toList.reverse, ['x']⟩) :=
  ((takeBalanced_exact (by decide) (by decide) _).1 _ _).mpr (by decide)

/-! ### Brackets of all kinds -/

/-- A text that closes its literals and its brackets of every kind. -/
def Balanced (text : List Char) : Prop :=
  ∀ pair ∈ bracketPairs, Closes pair.1 pair.2 text

instance : Decidable (Balanced text) :=
  inferInstanceAs (Decidable (∀ _ ∈ _, _))

/-- Where a pass that counts brackets of all kinds together stands behind one more character. -/
def codeStep : Quote × Int → Char → Quote × Int
  | (.outside, depth), c => (Quote.outside.step c, depth + bracketChange c)
  | (quote, depth), c => (quote.step c, depth)

section Sum

variable {curly round square curly' round' square' : Nat} {quote₁ quote₂ quote₃ : Quote}

theorem codeStep_eq (inCurly : bracketStep '\x7b' '\x7d' (quote, curly) c = some (quote₁, curly'))
    (inRound : bracketStep '(' ')' (quote, round) c = some (quote₂, round'))
    (inSquare : bracketStep '[' ']' (quote, square) c = some (quote₃, square')) :
    codeStep (quote, ↑(curly + round + square)) c =
      (quote.step c, ↑(curly' + round' + square')) := by
  cases quote with
  | outside =>
    refine Prod.ext rfl ?_
    by_cases bracket : c ∈ brackets
    · simp only [brackets, List.mem_cons, List.not_mem_nil, or_false] at bracket
      rcases bracket with rfl | rfl | rfl | rfl | rfl | rfl | rfl <;>
        simp [bracketStep] at inCurly inRound inSquare <;>
        simp [codeStep, bracketChange] <;> omega
    · simp only [brackets, List.mem_cons, List.not_mem_nil, or_false, not_or] at bracket
      simp [bracketStep, bracket] at inCurly inRound inSquare
      simp [codeStep, bracketChange, bracket, inCurly, inRound, inSquare]
  | inside | escaped =>
    obtain ⟨-, rfl⟩ := Prod.mk.inj (Option.some.inj inCurly)
    obtain ⟨-, rfl⟩ := Prod.mk.inj (Option.some.inj inRound)
    obtain ⟨-, rfl⟩ := Prod.mk.inj (Option.some.inj inSquare)
    rfl

/-- **The depth of a text** is the sum of its depths for each kind of brackets. -/
theorem foldl_codeStep
    (inCurly : text.foldlM (bracketStep '\x7b' '\x7d') (quote, curly) = some (quote₁, curly'))
    (inRound : text.foldlM (bracketStep '(' ')') (quote, round) = some (quote₂, round'))
    (inSquare : text.foldlM (bracketStep '[' ']') (quote, square) = some (quote₃, square')) :
    text.foldl codeStep (quote, ↑(curly + round + square)) =
      (quote.run text, ↑(curly' + round' + square')) := by
  induction text generalizing quote curly round square with
  | nil =>
    obtain ⟨-, rfl⟩ := Prod.mk.inj (Option.some.inj inCurly)
    obtain ⟨-, rfl⟩ := Prod.mk.inj (Option.some.inj inRound)
    obtain ⟨-, rfl⟩ := Prod.mk.inj (Option.some.inj inSquare)
    rfl
  | cons c rest ih =>
    rw [List.foldlM_cons, Option.bind_eq_bind, Option.bind_eq_some_iff] at inCurly inRound inSquare
    obtain ⟨⟨_, _⟩, first, inCurly⟩ := inCurly
    obtain ⟨⟨_, _⟩, second, inRound⟩ := inRound
    obtain ⟨⟨_, _⟩, third, inSquare⟩ := inSquare
    rw [List.foldl_cons, codeStep_eq first second third]
    obtain rfl := (bracketStep_eq_some first 0).1
    obtain rfl := (bracketStep_eq_some second 0).1
    obtain rfl := (bracketStep_eq_some third 0).1
    exact ih inCurly inRound inSquare

end Sum

theorem Balanced.codeStep (balanced : Balanced text) :
    text.foldl codeStep (.outside, 0) = (.outside, 0) := by
  have inCurly := balanced ('\x7b', '\x7d') (by decide)
  have passes := foldl_codeStep inCurly (balanced ('(', ')') (by decide))
    (balanced ('[', ']') (by decide))
  rwa [(run_of_bracketStep inCurly 0).1] at passes

/-- Where the depth of a balanced text is 0, outside of literals, all its brackets are closed. -/
theorem Balanced.of_codeStep (balanced : Balanced (front ++ back))
    (closed : front.foldl TypedScript.codeStep (.outside, 0) = (.outside, 0)) : Balanced front := by
  have inFront : ∀ pair ∈ bracketPairs, ∃ behind,
      front.foldlM (bracketStep pair.1 pair.2) (.outside, 0) = some behind := by
    intro pair member
    have passes := balanced pair member
    rw [Closes, List.foldlM_append, Option.bind_eq_bind, Option.bind_eq_some_iff] at passes
    obtain ⟨behind, found, _⟩ := passes
    exact ⟨behind, found⟩
  obtain ⟨⟨_, curly⟩, inCurly⟩ := inFront ('\x7b', '\x7d') (by decide)
  obtain ⟨⟨_, round⟩, inRound⟩ := inFront ('(', ')') (by decide)
  obtain ⟨⟨_, square⟩, inSquare⟩ := inFront ('[', ']') (by decide)
  have sum := (foldl_codeStep inCurly inRound inSquare).symm.trans closed
  obtain ⟨outside, none⟩ := Prod.mk.inj sum
  have each : curly = 0 ∧ round = 0 ∧ square = 0 := by omega
  obtain ⟨rfl, rfl, rfl⟩ := each
  obtain rfl := (run_of_bracketStep inCurly 0).1.symm.trans outside
  obtain rfl := (run_of_bracketStep inRound 0).1.symm.trans outside
  obtain rfl := (run_of_bracketStep inSquare 0).1.symm.trans outside
  intro pair member
  simp only [bracketPairs, groupBrackets, List.mem_cons, List.not_mem_nil, or_false] at member
  rcases member with rfl | rfl | rfl
  · exact inCurly
  · exact inRound
  · exact inSquare

/-! ### Arguments -/

/-- A text that is one argument: no comma of it stands outside of all brackets and literals. -/
structure IsArgument (text : List Char) : Prop extends Shown text where
  balanced : Balanced text
  hidden : ∀ front back, text = front ++ ',' :: back → ¬ Balanced front

/-- A text with blanks around it. -/
def Padded (text whole : List Char) : Prop :=
  ∃ before after : List Char, (∀ c ∈ before, isBlank c = true) ∧ (∀ c ∈ after, isBlank c = true) ∧
    whole = before ++ (text ++ after)

/-- Without a comma at depth 0 a text is passed over in one piece. -/
theorem pieces_append {quote' : Quote} {depth' : Int}
    (hidden : ∀ front back, text = front ++ ',' :: back →
      front.foldl codeStep (quote, depth) ≠ (.outside, 0))
    (ends : text.foldl codeStep (quote, depth) = (quote', depth')) (rest : List Char) :
    pieces argumentBrackets quote depth (text ++ rest) =
      text.foldr consPiece (pieces argumentBrackets quote' depth' rest) := by
  induction text generalizing quote depth with
  | nil =>
    obtain ⟨rfl, rfl⟩ := Prod.mk.inj ends
    rfl
  | cons c more ih =>
    have step : pieces argumentBrackets quote depth (c :: (more ++ rest)) =
        consPiece c (pieces argumentBrackets (codeStep (quote, depth) c).1
          (codeStep (quote, depth) c).2 (more ++ rest)) := by
      cases quote with
      | outside =>
        have same : argumentBrackets.change c = bracketChange c := by
          simp [Brackets.change, argumentBrackets, bracketChange, or_assoc]
        have noCut : (decide (c = ',') && decide (depth = 0)) = false := by
          by_contra cut
          simp only [Bool.not_eq_false, Bool.and_eq_true, decide_eq_true_eq] at cut
          obtain ⟨rfl, rfl⟩ := cut
          exact hidden [] more rfl rfl
        rw [pieces, noCut, same]
        rfl
      | inside | escaped => rfl
    rw [List.cons_append, step, List.foldr_cons]
    congr 1
    exact ih (fun front back whole => hidden (c :: front) back (by rw [whole]; rfl)) ends

theorem uncut_blanks (blank : ∀ c ∈ text, isBlank c = true) : Uncut argumentBrackets text := by
  intro rest
  refine scan_plain _ (fun c member rest => ?_) rest
  have visible : ∀ c ∈ ',' :: brackets, isBlank c = false := by decide
  have other : c ∉ ',' :: brackets := fun found =>
    absurd ((visible c found).symm.trans (blank c member)) (by decide)
  obtain ⟨noComma, plain⟩ := not_or.mp (mt List.mem_cons.mpr other)
  exact argumentPieces_plain plain (.inl noComma) rest

theorem IsArgument.uncut (argument : IsArgument text) : Uncut argumentBrackets text := by
  refine pieces_append (fun front back whole closed => ?_) argument.balanced.codeStep
  refine argument.hidden front back whole ?_
  have balanced := argument.balanced
  rw [whole] at balanced
  exact balanced.of_codeStep closed

theorem Shown.trim_padded {whole : List Char} (shown : Shown text) (padded : Padded text whole) :
    Text.trim whole = text := by
  obtain ⟨before, after, blankBefore, blankAfter, rfl⟩ := padded
  have start : trimStart (before ++ (text ++ after)) = text ++ after := by
    refine (List.dropWhile_append_of_pos blankBefore).trans (trimStart_eq_self fun c head => ?_)
    rw [List.head?_append_of_ne_nil _ shown.nonempty] at head
    exact shown.first c head
  have ends : trimEnd (text ++ after) = trimEnd text := by
    show ((text ++ after).reverse.dropWhile isBlank).reverse = _
    rw [List.reverse_append, List.dropWhile_append_of_pos (by simpa using blankAfter)]
    rfl
  rw [Text.trim, start, ends, trimEnd_eq_self shown.last]

/-- **Arguments are found again** between commas, whatever blanks stand around the commas. -/
theorem splitArguments_padded {arguments list : List (List Char)}
    (each : ∀ argument ∈ arguments, IsArgument argument)
    (padded : List.Forall₂ Padded arguments list) :
    splitArguments ([','].intercalate list) = arguments := by
  have facts : list.map Text.trim = arguments ∧
      ∀ whole ∈ list, Uncut argumentBrackets whole ∧ Text.trim whole ≠ [] := by
    induction padded with
    | nil => simp
    | @cons argument whole arguments list first others ih =>
      obtain ⟨isArgument, later⟩ := List.forall_mem_cons.mp each
      obtain ⟨same, cut⟩ := ih later
      have trimmed := isArgument.toShown.trim_padded first
      obtain ⟨before, after, blankBefore, blankAfter, rfl⟩ := first
      refine ⟨by rw [List.map_cons, trimmed, same], List.forall_mem_cons.mpr ⟨⟨?_, ?_⟩, cut⟩⟩
      · exact (uncut_blanks blankBefore).append (isArgument.uncut.append (uncut_blanks blankAfter))
      · rw [trimmed]
        exact isArgument.nonempty
  rw [splitArguments, trimmedPieces_intercalate (fun whole member => (facts.2 whole member).1)
    fun whole member => (facts.2 whole member).2, facts.1]

/-- A comma in brackets, one in a literal, and blanks of any kind around the others. -/
theorem splitArguments_padded_nested :
    splitArguments "f(a, b) ,\n\",\"".toList = ["f(a, b)".toList, "\",\"".toList] := by
  have hides (text : List Char) (closed : ∀ k < text.length, text[k]? = some ',' →
      ¬ Balanced (text.take k)) : ∀ front back, text = front ++ ',' :: back → ¬ Balanced front := by
    rintro front back rfl
    have found := closed front.length (by simp) (by simp)
    rwa [List.take_left] at found
  show splitArguments ([','].intercalate ["f(a, b) ".toList, "\n\",\"".toList]) = _
  refine splitArguments_padded (List.forall_mem_cons.mpr ⟨?_, List.forall_mem_singleton.mpr ?_⟩)
    (.cons ⟨[], [' '], by decide, by decide, by decide⟩
      (.cons ⟨['\n'], [], by decide, by decide, by decide⟩ .nil))
  · exact ⟨⟨by decide, by decide, by decide⟩, by decide, hides _ (by decide)⟩
  · exact ⟨⟨by decide, by decide, by decide⟩, by decide, hides _ (by decide)⟩

end TypedScript
