/-
**The first assignment.** The search for an assignment operator skips whole operators, brackets and
literals. It stops at the first operator that assigns, and a text without one does not hide one
behind it.
-/

import TypedScript.Proofs.Cutting.Brackets

namespace TypedScript

open Text

variable {c : Char} {text front : List Char} {quote : Quote} {depth : Int} {rest right : List Char}
  {op : Operator} {skip : Nat}

/-- The characters that operators of two characters end with. -/
def pairEnds : List Char :=
  ['=', '|', '&']

/-- An operator is read off two characters, or the second one does not matter. -/
theorem longestAt_cases (c d : Char) :
    (∀ rest, Operator.longestAt? (c :: d :: rest) = Operator.longestAt? [c]) ∨
      d ∈ pairEnds ∧
        ∃ op, op.length = 2 ∧ ∀ rest, Operator.longestAt? (c :: d :: rest) = some op := by
  by_cases start : c ∈ operatorStarts
  · simp only [operatorStarts, List.mem_cons, List.not_mem_nil, or_false] at start
    by_cases ends : d ∈ pairEnds
    · refine .imp_right (⟨ends, ·⟩) ?_
      simp only [pairEnds, List.mem_cons, List.not_mem_nil, or_false] at ends
      rcases start with rfl | rfl | rfl | rfl | rfl | rfl | rfl | rfl | rfl | rfl | rfl <;>
        rcases ends with rfl | rfl | rfl <;>
        first | exact .inl fun _ => rfl | exact .inr ⟨_, rfl, fun _ => rfl⟩
    · simp only [pairEnds, List.mem_cons, List.not_mem_nil, or_false, not_or] at ends
      refine .inl fun rest => ?_
      rcases start with rfl | rfl | rfl | rfl | rfl | rfl | rfl | rfl | rfl | rfl | rfl <;>
        simp [Operator.longestAt?, ends]
  · exact .inl fun rest => (longestAt_none start _).trans (longestAt_none start _).symm

/-- The operator at the start of a text is that at the start of its front, if it fits in there. -/
theorem longestAt_front {first : Option Operator} {tail : List Char}
    (found : Operator.longestAt? (c :: (front ++ tail)) = first)
    (fits : ∀ op ∈ first, op.length - 1 ≤ front.length) :
    Operator.longestAt? (c :: front) = first := by
  cases front with
  | cons d more =>
    rcases longestAt_cases c d with same | ⟨-, op, -, same⟩
    · rw [← found, same, List.cons_append, same]
    · rw [← found, same, List.cons_append, same]
  | nil =>
    cases tail with
    | nil => exact found
    | cons d more =>
      rw [List.nil_append] at found
      rcases longestAt_cases c d with same | ⟨-, op, length, same⟩
      · rw [← found, same]
      · rw [same] at found
        have short := fits op found.symm
        rw [length] at short
        contradiction

theorem startsWithArrow_iff :
    startsWithArrow (c :: rest) = true ↔ c = '=' ∧ rest.head? = some '>' := by
  constructor
  · intro arrow
    unfold startsWithArrow at arrow
    split at arrow
    · rename_i same
      obtain ⟨first, second⟩ := List.cons.inj same
      exact ⟨first, by rw [second]; rfl⟩
    · contradiction
  · rintro ⟨rfl, second⟩
    obtain ⟨more, rfl⟩ := List.head?_eq_some_iff.mp second
    rfl

theorem startsWithArrow_front (isAssignment : op.isAssignment = true)
    (arrow : startsWithArrow (c :: (front ++ (op.spelling.toList ++ right))) = true) :
    startsWithArrow (c :: front) = true := by
  obtain ⟨first, second⟩ := startsWithArrow_iff.mp arrow
  refine startsWithArrow_iff.mpr ⟨first, ?_⟩
  cases front with
  | nil => cases op <;> first | contradiction | exact absurd (Option.some.inj second) (by decide)
  | cons d more => exact second

theorem codeStep_plain (plain : c ∉ brackets) (depth : Int) :
    codeStep (.outside, depth) c = (.outside, depth) := by
  simp only [brackets, List.mem_cons, List.not_mem_nil, or_false, not_or] at plain
  simp [codeStep, Quote.step, bracketChange, plain]

/-- No operator is found at a character. -/
def Passed (quote : Quote) (depth : Int) (c : Char) (rest : List Char) : Prop :=
  quote = .outside → c ∉ brackets → depth = 0 → Operator.longestAt? (c :: rest) = none

theorem passed_or (quote : Quote) (depth : Int) (c : Char) (rest : List Char) :
    Passed quote depth c rest ∨ quote = .outside ∧ c ∉ brackets ∧ depth = 0 ∧
      ∃ op, Operator.longestAt? (c :: rest) = some op := by
  cases found : Operator.longestAt? (c :: rest) with
  | none => exact .inl fun _ _ _ => found
  | some op =>
    unfold Passed
    rw [found]
    tauto

theorem findAssignment_passed (passed : Passed quote depth c rest) :
    findAssignment 0 quote depth (c :: rest) = consSplit c
      (findAssignment 0 (codeStep (quote, depth) c).1 (codeStep (quote, depth) c).2 rest) := by
  cases quote with
  | outside =>
    by_cases plain : c ∈ brackets
    · simp only [brackets, List.mem_cons, List.not_mem_nil, or_false] at plain
      rcases plain with rfl | bracket
      · show _ = consSplit _ (findAssignment 0 .inside (depth + 0) rest)
        rw [Int.add_zero]
        rfl
      · rcases bracket with rfl | rfl | rfl | rfl | rfl | rfl <;> rfl
    · rw [codeStep_plain plain]
      by_cases deep : depth = 0
      · exact findAssignment_plain plain (passed rfl plain deep) depth
      · exact findAssignment_deep plain deep rest
  | inside | escaped => rfl

/-- What stands in front of the first assignment operator holds none. -/
theorem findAssignment_left {left : List Char}
    (cut : findAssignment skip quote depth text = some (left, op, right)) :
    op.isAssignment = true ∧ findAssignment skip quote depth left = none ∧
      skip ≤ left.length := by
  induction text generalizing skip quote depth left with
  | nil =>
    unfold findAssignment at cut
    contradiction
  | cons c rest ih =>
    cases skip with
    | succ skip =>
      obtain ⟨front, rfl, inside⟩ := consSplit_eq_some cut
      obtain ⟨isAssignment, none, long⟩ := ih inside
      exact ⟨isAssignment, by rw [findAssignment, none]; rfl, Nat.succ_le_succ long⟩
    | zero =>
      rcases passed_or quote depth c rest with passed | ⟨rfl, plain, rfl, first, found⟩
      · rw [findAssignment_passed passed] at cut
        obtain ⟨front, rfl, inside⟩ := consSplit_eq_some cut
        obtain ⟨isAssignment, none, -⟩ := ih inside
        refine ⟨isAssignment, ?_, Nat.zero_le _⟩
        rw [findAssignment_passed, none]
        · rfl
        · intro outside plain shallow
          have found := passed outside plain shallow
          rw [findAssignment_eq_some inside, List.append_assoc] at found
          exact longestAt_front found (by simp)
      · rw [findAssignment_code plain, if_pos rfl, found, Option.elim_some] at cut
        split_ifs at cut with here
        · obtain ⟨rfl, rfl, -⟩ : [] = left ∧ first = op ∧ _ = right := by simpa using cut
          exact ⟨(Bool.and_eq_true_iff.mp here).1, rfl, Nat.le_refl 0⟩
        · obtain ⟨front, rfl, inside⟩ := consSplit_eq_some cut
          obtain ⟨isAssignment, none, long⟩ := ih inside
          rw [findAssignment_eq_some inside, List.append_assoc] at found here
          have same := longestAt_front found (by simpa using long)
          refine ⟨isAssignment, ?_, Nat.zero_le _⟩
          rw [findAssignment_code plain, if_pos rfl, same, Option.elim_some, if_neg, none]
          · rfl
          · rw [Bool.and_eq_true_iff, Bool.not_eq_true'] at here ⊢
            rintro ⟨assigns, noArrow⟩
            refine here ⟨assigns, Bool.eq_false_iff.mpr fun arrow => ?_⟩
            rw [startsWithArrow_front isAssignment arrow] at noArrow
            contradiction

/-- Whether the first `skip` characters end an operator. -/
def EndsOperator (skip : Nat) (quote : Quote) (text : List Char) : Prop :=
  skip = 0 ∨ skip = 1 ∧ quote = .outside ∧ ∃ d ∈ pairEnds, ∃ more, text = d :: more

theorem endsOperator_of_longestAt (found : Operator.longestAt? (c :: rest) = some op) :
    EndsOperator (op.length - 1) .outside rest := by
  have one {op : Operator} (found : Operator.longestAt? [c] = some op) : op.length - 1 = 0 := by
    have whole := congrArg List.length (Operator.longestAt?_eq_some found)
    rw [List.drop_nil, List.append_nil, String.length_toList] at whole
    exact Nat.sub_eq_zero_of_le (Nat.le_of_eq whole.symm)
  cases rest with
  | nil => exact .inl (one found)
  | cons d more =>
    rcases longestAt_cases c d with same | ⟨isEnd, other, length, same⟩
    · exact .inl (one ((same more).symm.trans found))
    · obtain rfl := Option.some.inj ((same more).symm.trans found)
      exact .inr ⟨by rw [length], rfl, d, isEnd, more, rfl⟩

theorem longestAt_blank (rest : List Char) :
    Operator.longestAt? (c :: (text ++ ' ' :: rest)) = Operator.longestAt? (c :: text) := by
  cases text with
  | nil =>
    rcases longestAt_cases c ' ' with same | ⟨isEnd, -⟩
    · exact same rest
    · contradiction
  | cons d more =>
    rcases longestAt_cases c d with same | ⟨-, op, -, same⟩ <;>
      rw [List.cons_append, same, same]

theorem startsWithArrow_blank (rest : List Char) :
    startsWithArrow (c :: (text ++ ' ' :: rest)) = startsWithArrow (c :: text) := by
  rw [Bool.eq_iff_iff, startsWithArrow_iff, startsWithArrow_iff]
  cases text <;> simp

/-- Behind a text without an assignment that closes its brackets the search begins anew. -/
theorem findAssignment_append (ends : EndsOperator skip quote text)
    (none : findAssignment skip quote depth text = none)
    (closed : text.foldl codeStep (quote, depth) = (.outside, 0)) (rest : List Char) :
    findAssignment skip quote depth (text ++ ' ' :: rest) =
      text.foldr consSplit (findAssignment 0 .outside 0 (' ' :: rest)) := by
  induction text generalizing skip quote depth with
  | nil =>
    obtain ⟨rfl, rfl⟩ := Prod.mk.inj closed
    rcases ends with rfl | ⟨-, -, _, -, _, absurd⟩
    · rfl
    · contradiction
  | cons c more ih =>
    have unfound {split : Option (List Char × Operator × List Char)}
        (none : consSplit c split = Option.none) : split = Option.none :=
      Option.map_eq_none_iff.mp none
    rw [List.foldl_cons] at closed
    rw [List.cons_append, List.foldr_cons]
    rcases ends with rfl | ⟨rfl, rfl, d, isEnd, _, same⟩
    · rcases passed_or quote depth c more with passed | ⟨rfl, plain, rfl, first, found⟩
      · rw [findAssignment_passed passed] at none
        rw [findAssignment_passed, ih (.inl rfl) (unfound none) closed]
        intro outside plain shallow
        rw [longestAt_blank, passed outside plain shallow]
      · rw [codeStep_plain plain] at closed
        rw [findAssignment_code plain, if_pos rfl, found, Option.elim_some] at none
        split_ifs at none with here
        rw [findAssignment_code plain, if_pos rfl, longestAt_blank, found, Option.elim_some,
          startsWithArrow_blank, if_neg here,
          ih (endsOperator_of_longestAt found) (unfound none) closed]
    · obtain ⟨rfl, rfl⟩ := List.cons.inj same
      have still : ∀ c ∈ pairEnds, c ∉ brackets := by decide
      rw [findAssignment] at none ⊢
      rw [codeStep_plain (still _ isEnd)] at closed
      rw [ih (.inl rfl) (unfound none) closed]

/-- **An assignment is cut at its first operator.** Nothing is lost, and there is no operator in
front of the cut. Behind any other text whose brackets and literals are closed, an operator between
blanks is found. -/
theorem splitAssignment_first :
    (∀ text left op right, splitAssignment text = some (left, op, right) →
      text = left ++ op.spelling.toList ++ right ∧ op.isAssignment = true ∧
        splitAssignment left = none) ∧
    (∀ left, Balanced left → splitAssignment left = none → ∀ op, op.isAssignment = true →
      ∀ right, splitAssignment (left ++ ' ' :: (op.spelling.toList ++ ' ' :: right)) =
        some (left ++ [' '], op, ' ' :: right)) := by
  refine ⟨fun text left op right cut => ?_, fun left balanced none op isAssignment right => ?_⟩
  · have whole := splitAssignment_eq_some cut
    rw [splitAssignment_eq] at cut ⊢
    obtain ⟨isAssignment, none, -⟩ := findAssignment_left cut
    exact ⟨whole, isAssignment, none⟩
  · have found : findAssignment 0 .outside 0 (' ' :: (op.spelling.toList ++ ' ' :: right)) =
        some ([' '], op, ' ' :: right) := by
      cases op <;> first | contradiction | rfl
    rw [splitAssignment_eq] at none ⊢
    rw [findAssignment_append (.inl rfl) none balanced.codeStep, found,
      foldr_consSplit_some]

/-- Comparisons, arrows, brackets and literals in front of the operator. -/
theorem splitAssignment_first_nested :
    splitAssignment "a <= f(b = 1, \"=\") => += c = d".toList =
        some ("a <= f(b = 1, \"=\") => ".toList, .addAssign, " c = d".toList) ∧
      splitAssignment "a <= f(b = 1, \"=\") => ".toList = none :=
  have found := splitAssignment_first.2 "a <= f(b = 1, \"=\") =>".toList (by decide) (by decide)
    .addAssign rfl "c = d".toList
  ⟨found, (splitAssignment_first.1 _ _ _ _ found).2.2⟩

end TypedScript
