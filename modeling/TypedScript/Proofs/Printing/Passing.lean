/-
**Text that passes pass over.** A script is read by several passes, each with its own count of
brackets: cutting into statements, looking for the end of a bracket, cutting at commas, looking for
an assignment. `Pass` is what they have in common. `Passable` texts are those that all of them take
in whole, from a place to the same place.

What may stand at a place depends on the brackets around it: a `Level` is an expression, a list of
expressions, or a block of statements.

* `heldPass`, `balancedPass`, `argumentPass`, `assignmentPass`: the four passes.
-/

import TypedScript.Proofs.Printing.Print
import TypedScript.Proofs.Splitting.Whole
import TypedScript.Proofs.Text.Regions

namespace TypedScript

open Text

/-! ### Passable texts -/

/-- What a text is part of. -/
inductive Level where
  /-- An expression. -/
  | value
  /-- Expressions with commas between them. -/
  | list
  /-- Statements. -/
  | block
  deriving DecidableEq, Repr

/-- The characters that mean nothing to any pass. -/
def Level.isQuiet (level : Level) (c : Char) : Bool :=
  isWordChar c || c == '.' || c == ' ' ||
    match level with
    | .value => false
    | .list => c == ','
    | .block => [',', ';', '\n', '='].contains c

/-- Operators of one character, and the bar between types. -/
def signs : List Char :=
  ['<', '>', '+', '-', '*', '/', '%', '!', '|']

/-- The characters that would form something else with a sign in front of them. -/
def joiners : List Char :=
  ['=', '|', '/', '*']

/-- Operators of two characters. -/
def pairs : List Operator :=
  [.equals, .notEquals, .lessEquals, .greaterEquals, .addAssign, .subAssign, .mulAssign, .divAssign,
   .or, .and]

def groupBrackets : List (Char × Char) :=
  [('(', ')'), ('[', ']')]

def bracketPairs : List (Char × Char) :=
  ('\x7b', '\x7d') :: groupBrackets

/-- What stands between the quotes of a literal. -/
inductive LiteralBody : List Char → Prop
  | nil : LiteralBody []
  | plain {c : Char} {rest : List Char} (noQuote : c ≠ '"') (noEscape : c ≠ '\\')
      (others : LiteralBody rest) : LiteralBody (c :: rest)
  | escaped (c : Char) {rest : List Char} (others : LiteralBody rest) :
      LiteralBody ('\\' :: c :: rest)

/-- A text of a level with complete literals and brackets. A sign is followed by a character that it
forms nothing with. -/
inductive Passable : Level → List Char → Prop
  | nil (level : Level) : Passable level []
  | quiet {level : Level} {c : Char} {rest : List Char} (isQuiet : level.isQuiet c = true)
      (others : Passable level rest) : Passable level (c :: rest)
  | sign {level : Level} {c d : Char} {rest : List Char} (isSign : c ∈ signs) (apart : d ∉ joiners)
      (others : Passable level (d :: rest)) : Passable level (c :: d :: rest)
  | pair {level : Level} {op : Operator} {rest : List Char} (isPair : op ∈ pairs)
      (allowed : op.isAssignment = true → level = .block) (others : Passable level rest) :
      Passable level (op.spelling.toList ++ rest)
  | literal {level : Level} {body rest : List Char} (isBody : LiteralBody body)
      (others : Passable level rest) : Passable level ('"' :: (body ++ '"' :: rest))
  | group {level : Level} {opener closer : Char} {inner rest : List Char}
      (brackets : (opener, closer) ∈ groupBrackets) (inside : Passable .list inner)
      (others : Passable level rest) : Passable level (opener :: (inner ++ closer :: rest))
  | braces {inner rest : List Char} (inside : Passable .block inner)
      (others : Passable .block rest) : Passable .block ('\x7b' :: (inner ++ '\x7d' :: rest))

namespace Passable

variable {level other : Level} {front back : List Char}

theorem append (first : Passable level front) (second : Passable level back) :
    Passable level (front ++ back) := by
  induction first with
  | nil => exact second
  | quiet isQuiet _ ih => exact .quiet isQuiet (ih second)
  | sign isSign apart _ ih => exact .sign isSign apart (ih second)
  | pair isPair allowed _ ih =>
    rw [List.append_assoc]
    exact .pair isPair allowed (ih second)
  | literal isBody _ ih =>
    rw [List.cons_append, List.append_assoc]
    exact .literal isBody (ih second)
  | group brackets inside _ _ ih =>
    rw [List.cons_append, List.append_assoc]
    exact .group brackets inside (ih second)
  | braces inside _ _ ih =>
    rw [List.cons_append, List.append_assoc]
    exact .braces inside (ih second)

theorem lift (text : Passable level front)
    (quieter : ∀ c, level.isQuiet c = true → other.isQuiet c = true)
    (inBlock : level = .block → other = .block) : Passable other front := by
  induction text with
  | nil => exact .nil other
  | quiet isQuiet _ ih => exact .quiet (quieter _ isQuiet) (ih quieter inBlock)
  | sign isSign apart _ ih => exact .sign isSign apart (ih quieter inBlock)
  | pair isPair allowed _ ih =>
    exact .pair isPair (fun isAssignment => inBlock (allowed isAssignment)) (ih quieter inBlock)
  | literal isBody _ ih => exact .literal isBody (ih quieter inBlock)
  | group brackets inside _ _ ih => exact .group brackets inside (ih quieter inBlock)
  | braces inside _ _ ih =>
    obtain rfl := inBlock rfl
    exact .braces inside (ih quieter inBlock)

theorem to_list (text : Passable .value front) : Passable .list front := by
  refine text.lift (fun c isQuiet => ?_) (fun absurd => nomatch absurd)
  simp only [Level.isQuiet, Bool.or_false] at isQuiet ⊢
  rw [isQuiet, Bool.true_or]

theorem to_block (text : Passable .list front) : Passable .block front := by
  refine text.lift (fun c isQuiet => ?_) (fun absurd => nomatch absurd)
  unfold Level.isQuiet at isQuiet ⊢
  rw [Bool.or_eq_true] at isQuiet ⊢
  refine isQuiet.imp_right fun comma => ?_
  obtain rfl := eq_of_beq comma
  rfl

theorem of_quiet (quiet : ∀ c ∈ front, level.isQuiet c = true) : Passable level front := by
  induction front with
  | nil => exact .nil level
  | cons c rest ih =>
    exact .quiet (quiet c List.mem_cons_self) (ih fun d member => quiet d (.tail c member))

end Passable

/-! ### Passes -/

/-- A pass over text that keeps where it stands with respect to literals, and a depth of brackets. A
character that is taken in is put in front of the result for the text behind it. -/
structure Pass (Depth Result : Type) where
  scan : Quote → Depth → List Char → Result
  cons : Char → Result → Result
  /-- The depth behind an opening bracket. -/
  raised : Char → Depth → Depth
  /-- Whether text of a level is taken in at a depth. -/
  admits : Level → Depth → Prop
  scan_inside : ∀ depth c rest,
    scan .inside depth (c :: rest) = cons c (scan (Quote.inside.step c) depth rest)
  scan_escaped : ∀ depth c rest, scan .escaped depth (c :: rest) = cons c (scan .inside depth rest)
  scan_quote : ∀ depth rest, scan .outside depth ('"' :: rest) = cons '"' (scan .inside depth rest)
  scan_quiet : ∀ {level depth}, admits level depth → ∀ {c}, level.isQuiet c = true → ∀ rest,
    scan .outside depth (c :: rest) = cons c (scan .outside depth rest)
  scan_sign : ∀ {level depth}, admits level depth → ∀ {c d}, c ∈ signs → d ∉ joiners → ∀ rest,
    scan .outside depth (c :: d :: rest) = cons c (scan .outside depth (d :: rest))
  scan_pair : ∀ {level depth}, admits level depth → ∀ {op}, op ∈ pairs →
    (op.isAssignment = true → level = .block) → ∀ rest,
    scan .outside depth (op.spelling.toList ++ rest) =
      op.spelling.toList.foldr cons (scan .outside depth rest)
  scan_opener : ∀ {opener closer}, (opener, closer) ∈ bracketPairs →
    ∀ depth rest, scan .outside depth (opener :: rest) =
      cons opener (scan .outside (raised opener depth) rest)
  scan_closer : ∀ {level depth}, admits level depth → ∀ {opener closer},
    (opener, closer) ∈ bracketPairs → (opener = '\x7b' → level = .block) →
    ∀ rest, scan .outside (raised opener depth) (closer :: rest) =
      cons closer (scan .outside depth rest)
  admits_list : ∀ {level depth}, admits level depth → ∀ {opener closer},
    (opener, closer) ∈ groupBrackets → admits .list (raised opener depth)
  admits_block : ∀ {depth}, admits .block depth → admits .block (raised '\x7b' depth)

namespace Pass

variable {Depth Result : Type} (pass : Pass Depth Result)

theorem passes_body {body : List Char} (isBody : LiteralBody body) (depth : Depth)
    (rest : List Char) :
    pass.scan .inside depth (body ++ rest) = body.foldr pass.cons (pass.scan .inside depth rest) := by
  induction isBody with
  | nil => rfl
  | plain noQuote noEscape _ ih =>
    rw [List.cons_append, pass.scan_inside, List.foldr_cons, ← ih, Quote.step, if_neg noQuote,
      if_neg noEscape]
  | escaped c _ ih =>
    rw [List.cons_append, List.cons_append, pass.scan_inside, Quote.step, if_neg (by decide),
      if_pos rfl, pass.scan_escaped, List.foldr_cons, List.foldr_cons, ← ih]

/-- **A pass takes in a passable text whole.** -/
theorem passes {level : Level} {text : List Char} (passable : Passable level text) {depth : Depth}
    (admitted : pass.admits level depth) (rest : List Char) :
    pass.scan .outside depth (text ++ rest) =
      text.foldr pass.cons (pass.scan .outside depth rest) := by
  induction passable generalizing depth rest with
  | nil => rfl
  | quiet isQuiet _ ih =>
    rw [List.cons_append, pass.scan_quiet admitted isQuiet, ih admitted, List.foldr_cons]
  | sign isSign apart _ ih =>
    rw [List.cons_append, List.cons_append, pass.scan_sign admitted isSign apart,
      ← List.cons_append, ih admitted]
    rfl
  | pair isPair allowed _ ih =>
    rw [List.append_assoc, pass.scan_pair admitted isPair allowed, ih admitted,
      List.foldr_append]
  | literal isBody _ ih =>
    rw [List.cons_append, List.append_assoc, List.cons_append, pass.scan_quote,
      pass.passes_body isBody, pass.scan_inside, Quote.step, if_pos rfl, ih admitted,
      List.foldr_cons, List.foldr_append, List.foldr_cons]
  | @group level opener closer inner others brackets _ _ ihInside ih =>
    have isBracket := List.mem_cons_of_mem ('\x7b', '\x7d') brackets
    have noBrace : opener = '\x7b' → level = .block := by
      rintro rfl
      simp [groupBrackets] at brackets
    rw [List.cons_append, List.append_assoc, List.cons_append, pass.scan_opener isBracket,
      ihInside (pass.admits_list admitted brackets), pass.scan_closer admitted isBracket noBrace,
      ih admitted, List.foldr_cons, List.foldr_append, List.foldr_cons]
  | braces _ _ ihInside ih =>
    have isBracket : ('\x7b', '\x7d') ∈ bracketPairs := List.mem_cons_self
    rw [List.cons_append, List.append_assoc, List.cons_append, pass.scan_opener isBracket,
      ihInside (pass.admits_block admitted), pass.scan_closer admitted isBracket fun _ => rfl,
      ih admitted, List.foldr_cons, List.foldr_append, List.foldr_cons]

end Pass

/-! ### What passes look at -/

def brackets : List Char :=
  ['"', '(', ')', '[', ']', '\x7b', '\x7d']

theorem bracketPairs_cases {opener closer : Char} (found : (opener, closer) ∈ bracketPairs) :
    opener = '\x7b' ∧ closer = '\x7d' ∨ opener = '(' ∧ closer = ')' ∨
      opener = '[' ∧ closer = ']' := by
  simpa [bracketPairs, groupBrackets] using found

theorem not_bracket_of_isQuiet {level : Level} {c : Char} (isQuiet : level.isQuiet c = true) :
    c ∉ '/' :: brackets := by
  intro special
  have each : ∀ c ∈ '/' :: brackets, ∀ level ∈ [Level.value, .list, .block],
      level.isQuiet c = false := by decide
  have loud : level.isQuiet c = false := each c special level (by cases level <;> decide)
  rw [loud] at isQuiet
  contradiction

theorem not_bracket_of_sign {c : Char} (isSign : c ∈ signs) : c ∉ brackets := by
  have each : ∀ c ∈ signs, c ∉ brackets := by decide
  exact each c isSign

theorem not_bracket_of_pair {op : Operator} (isPair : op ∈ pairs) :
    ∀ c ∈ op.spelling.toList, c ∉ brackets := by
  have each : ∀ op ∈ pairs, ∀ c ∈ op.spelling.toList, c ∉ brackets := by decide
  exact each op isPair

theorem scan_plain {Result : Type} {scan : List Char → Result} {cons : Char → Result → Result}
    (text : List Char) (plain : ∀ c ∈ text, ∀ rest, scan (c :: rest) = cons c (scan rest))
    (rest : List Char) : scan (text ++ rest) = text.foldr cons (scan rest) := by
  induction text with
  | nil => rfl
  | cons c text ih =>
    rw [List.cons_append, plain c List.mem_cons_self, List.foldr_cons,
      ih fun d member => plain d (.tail c member)]

/-- Every bracket changes the depth by one. -/
def CountsBrackets {Result : Type} (scan : Int → List Char → Result)
    (cons : Char → Result → Result) : Prop :=
  ∀ c ∈ brackets.tail, ∀ depth rest,
    scan depth (c :: rest) = cons c (scan (depth + bracketChange c) rest)

/-- A closing bracket leads back to the depth in front of the opening one. -/
theorem CountsBrackets.pair {Result : Type} {scan : Int → List Char → Result}
    {cons : Char → Result → Result} (change : CountsBrackets scan cons) {opener closer : Char}
    (found : (opener, closer) ∈ bracketPairs) (depth : Int) (rest : List Char) :
    scan depth (opener :: rest) = cons opener (scan (depth + 1) rest) ∧
      scan (depth + 1) (closer :: rest) = cons closer (scan depth rest) := by
  have each : ∀ pair ∈ bracketPairs, pair.1 ∈ brackets.tail ∧ pair.2 ∈ brackets.tail ∧
      bracketChange pair.1 = 1 ∧ bracketChange pair.2 = -1 := by decide
  obtain ⟨opens, closes, up, down⟩ := each (opener, closer) found
  constructor
  · rw [change opener opens, up]
  · rw [change closer closes, down, show depth + 1 + -1 = depth by omega]

/-! ### Looking for the end of a bracket -/

section Balanced

variable {opener closer : Char} {level : Level} {inner : List Char}

theorem balancedTail_plain (kind : (opener, closer) ∈ bracketPairs) {c : Char}
    (plain : c ∉ brackets) (depth : Nat) (rest : List Char) :
    balancedTail opener closer .outside depth (c :: rest) =
      consCut c (balancedTail opener closer .outside depth rest) := by
  have each : ∀ pair ∈ bracketPairs, pair.1 ∈ brackets ∧ pair.2 ∈ brackets := by decide
  obtain ⟨isOpener, isCloser⟩ := each _ kind
  have noQuote : c ≠ '"' := (ne_of_mem_of_not_mem (by decide) plain).symm
  have noOpener : c ≠ opener := (ne_of_mem_of_not_mem isOpener plain).symm
  have noCloser : c ≠ closer := (ne_of_mem_of_not_mem isCloser plain).symm
  show (if c = '"' then _ else if c = opener then _ else if c = closer then _ else _) = _
  rw [if_neg noQuote, if_neg noOpener, if_neg noCloser]

theorem balancedTail_bracket (kind : (opener, closer) ∈ bracketPairs) {first last : Char}
    (found : (first, last) ∈ bracketPairs) (depth : Nat) (rest : List Char) :
    balancedTail opener closer .outside depth (first :: rest) = consCut first
      (balancedTail opener closer .outside (if first = opener then depth + 1 else depth) rest) ∧
    balancedTail opener closer .outside (if first = opener then depth + 1 else depth)
        (last :: rest) = consCut last (balancedTail opener closer .outside depth rest) := by
  rcases bracketPairs_cases kind with ⟨rfl, rfl⟩ | ⟨rfl, rfl⟩ | ⟨rfl, rfl⟩ <;>
    rcases bracketPairs_cases found with ⟨rfl, rfl⟩ | ⟨rfl, rfl⟩ | ⟨rfl, rfl⟩ <;> exact ⟨rfl, rfl⟩

def balancedPass (kind : (opener, closer) ∈ bracketPairs) :
    Pass Nat (Option (List Char × List Char)) where
  scan := balancedTail opener closer
  cons := consCut
  raised c depth := if c = opener then depth + 1 else depth
  admits _ _ := True
  scan_inside _ _ _ := rfl
  scan_escaped _ _ _ := rfl
  scan_quote _ _ := rfl
  scan_quiet _ _ isQuiet rest := by
    have plain := List.not_mem_of_not_mem_cons (not_bracket_of_isQuiet isQuiet)
    exact balancedTail_plain kind plain _ rest
  scan_sign _ _ _ isSign _ _ := balancedTail_plain kind (not_bracket_of_sign isSign) _ _
  scan_pair _ _ isPair _ rest := by
    refine scan_plain _ (fun c member rest => ?_) rest
    exact balancedTail_plain kind (not_bracket_of_pair isPair c member) _ rest
  scan_opener found depth rest := (balancedTail_bracket kind found depth rest).1
  scan_closer _ _ _ found _ rest := (balancedTail_bracket kind found _ rest).2
  admits_list _ _ _ _ := trivial
  admits_block _ := trivial

theorem balanced_of_passable (kind : (opener, closer) ∈ bracketPairs)
    (passable : Passable level inner) (rest : List Char) :
    balanced opener closer (opener :: (inner ++ closer :: rest)) = some (inner, rest) := by
  have found : balancedTail opener closer .outside 0 (closer :: rest) = some ([], rest) := by
    rcases bracketPairs_cases kind with ⟨rfl, rfl⟩ | ⟨rfl, rfl⟩ | ⟨rfl, rfl⟩ <;> rfl
  rw [balanced_cons, if_pos rfl]
  refine ((balancedPass kind).passes passable trivial (closer :: rest)).trans ?_
  show inner.foldr consCut (balancedTail opener closer .outside 0 (closer :: rest)) = _
  rw [found, foldr_consCut, Option.map_some, List.append_nil]

theorem advance_append (passed text rest : List Char) :
    Cursor.advance ⟨passed, text ++ rest⟩ text.length = ⟨text.reverse ++ passed, rest⟩ := by
  rw [Cursor.advance, List.take_left, List.drop_left]

theorem skipBlank_append (passed : List Char) {blanks : List Char}
    (blank : ∀ c ∈ blanks, isBlank c = true) (rest : List Char)
    (first : ∀ c ∈ rest.head?, isBlank c = false) :
    Cursor.skipBlank ⟨passed, blanks ++ rest⟩ = ⟨blanks.reverse ++ passed, rest⟩ := by
  rw [Cursor.skipBlank, (span_append blank first).1, advance_append]

theorem takeBalanced_of_passable (kind : (opener, closer) ∈ bracketPairs)
    (passable : Passable level inner) (passed rest : List Char) :
    Cursor.takeBalanced ⟨passed, opener :: (inner ++ closer :: rest)⟩ opener closer =
      (some inner, ⟨(opener :: (inner ++ [closer])).reverse ++ passed, rest⟩) := by
  have moved := advance_append passed (opener :: (inner ++ [closer])) rest
  simp only [List.cons_append, List.append_assoc, List.nil_append, List.length_cons,
    List.length_append, List.length_nil] at moved
  rw [Cursor.takeBalanced, balanced_of_passable kind passable]
  simp only [moved]

end Balanced

/-! ### Cutting at commas -/

section Arguments

variable {c : Char} {depth : Int}

theorem pieces_plain {brackets : Brackets} (unchanged : brackets.change c = 0)
    (noQuote : brackets.quotes = true → c ≠ '"') (noComma : c ≠ ',' ∨ depth ≠ 0)
    (rest : List Char) :
    pieces brackets .outside depth (c :: rest) =
      consPiece c (pieces brackets .outside depth rest) := by
  have noCut : (decide (c = ',') && decide (depth = 0)) = false := by
    rcases noComma with other | deep
    · simp [other]
    · simp [deep]
  have outside : (if brackets.quotes then Quote.outside.step c else .outside) = .outside := by
    by_cases quotes : brackets.quotes = true
    · rw [if_pos quotes, Quote.step, if_neg (noQuote quotes)]
    · rw [if_neg quotes]
  show (if (decide (c = ',') && decide (depth = 0)) = true then _ else
    consPiece c (pieces brackets (if brackets.quotes then Quote.outside.step c else .outside)
      (depth + brackets.change c) rest)) = _
  rw [noCut, if_neg (by decide), outside, unchanged, Int.add_zero]

theorem argumentPieces_plain (plain : c ∉ brackets) (noComma : c ≠ ',' ∨ depth ≠ 0)
    (rest : List Char) :
    pieces argumentBrackets .outside depth (c :: rest) =
      consPiece c (pieces argumentBrackets .outside depth rest) := by
  refine pieces_plain ?_ (fun _ => (ne_of_mem_of_not_mem (by decide) plain).symm) noComma rest
  simp only [brackets, List.mem_cons, List.not_mem_nil, or_false, not_or] at plain
  simp [Brackets.change, argumentBrackets, plain]

theorem argumentPieces_brackets : CountsBrackets (pieces argumentBrackets .outside) consPiece := by
  intro c member depth rest
  simp only [brackets, List.tail_cons, List.mem_cons, List.not_mem_nil, or_false] at member
  rcases member with rfl | rfl | rfl | rfl | rfl | rfl <;> rfl

/-- Cutting at commas. At depth 0 there are none in an expression. -/
def argumentPass : Pass Int (List (List Char)) where
  scan := pieces argumentBrackets
  cons := consPiece
  raised _ depth := depth + 1
  admits level depth := 0 ≤ depth ∧ (level = .value ∨ 0 < depth)
  scan_inside _ _ _ := rfl
  scan_escaped _ _ _ := rfl
  scan_quote depth rest := by
    show consPiece '"' (pieces argumentBrackets .inside (depth + 0) rest) = _
    rw [Int.add_zero]
  scan_quiet := by
    intro level depth admitted c isQuiet rest
    have plain := List.not_mem_of_not_mem_cons (not_bracket_of_isQuiet isQuiet)
    refine argumentPieces_plain plain ?_ rest
    rcases admitted.2 with rfl | deep
    · refine .inl ?_
      rintro rfl
      contradiction
    · exact .inr (by omega)
  scan_sign := by
    intro level depth _ c d isSign _ rest
    have each : ∀ c ∈ signs, c ≠ ',' := by decide
    exact argumentPieces_plain (not_bracket_of_sign isSign) (.inl (each c isSign)) _
  scan_pair := by
    intro level depth _ op isPair _ rest
    have each : ∀ op ∈ pairs, ∀ c ∈ op.spelling.toList, c ≠ ',' := by decide
    refine scan_plain _ (fun c member rest => ?_) rest
    exact argumentPieces_plain (not_bracket_of_pair isPair c member)
      (.inl (each op isPair c member)) rest
  scan_opener found depth rest := (argumentPieces_brackets.pair found depth rest).1
  scan_closer _ _ _ found _ rest := (argumentPieces_brackets.pair found _ rest).2
  admits_list admitted _ _ _ := ⟨by omega, .inr (by omega)⟩
  admits_block admitted := ⟨by omega, .inr (by omega)⟩

end Arguments

/-! ### Looking for an assignment -/

section Assignments

variable {c : Char} {rest : List Char} {depth : Int}

theorem findAssignment_code (plain : c ∉ brackets) (depth : Int) (rest : List Char) :
    findAssignment 0 .outside depth (c :: rest) =
      (if depth = 0 then Operator.longestAt? (c :: rest) else none).elim
        (consSplit c (findAssignment 0 .outside depth rest)) fun op =>
          if op.isAssignment && !startsWithArrow (c :: rest) then
            some ([], op, rest.drop (op.length - 1))
          else consSplit c (findAssignment (op.length - 1) .outside depth rest) := by
  have noQuote : c ≠ '"' := (ne_of_mem_of_not_mem (by decide) plain).symm
  have unchanged : bracketChange c = 0 := by
    simp only [brackets, List.mem_cons, List.not_mem_nil, or_false, not_or] at plain
    simp [bracketChange, plain]
  rw [findAssignment, if_neg noQuote, if_neg (not_not_intro unchanged)]
  generalize (if depth = 0 then Operator.longestAt? (c :: rest) else none) = found
  cases found <;> rfl

theorem findAssignment_deep (plain : c ∉ brackets) (deep : depth ≠ 0) (rest : List Char) :
    findAssignment 0 .outside depth (c :: rest) =
      consSplit c (findAssignment 0 .outside depth rest) := by
  rw [findAssignment_code plain, if_neg deep, Option.elim_none]

theorem findAssignment_plain (plain : c ∉ brackets)
    (noOperator : Operator.longestAt? (c :: rest) = none) (depth : Int) :
    findAssignment 0 .outside depth (c :: rest) =
      consSplit c (findAssignment 0 .outside depth rest) := by
  rw [findAssignment_code plain, noOperator, ite_self, Option.elim_none]

theorem findAssignment_operator (plain : c ∉ brackets) {op : Operator}
    (found : Operator.longestAt? (c :: rest) = some op) (other : op.isAssignment = false) :
    findAssignment 0 .outside 0 (c :: rest) =
      consSplit c (findAssignment (op.length - 1) .outside 0 rest) := by
  rw [findAssignment_code plain, if_pos rfl, found, Option.elim_some, other, Bool.false_and,
    if_neg (by decide)]

def operatorStarts : List Char :=
  ['=', '!', '<', '>', '+', '-', '*', '/', '|', '&', '%']

theorem longestAt_none (other : c ∉ operatorStarts) (rest : List Char) :
    Operator.longestAt? (c :: rest) = none := by
  have apart : ∀ d ∈ operatorStarts, c ≠ d := fun d start => (ne_of_mem_of_not_mem start other).symm
  rw [Operator.longestAt?] <;>
    · intros
      rename_i same
      exact absurd (List.cons.inj same).1 (apart _ (by decide))

theorem longestAt_sign {d : Char} (isSign : c ∈ signs) (apart : d ∉ joiners) (rest : List Char) :
    Operator.longestAt? (c :: d :: rest) = none ∨
      ∃ op, Operator.longestAt? (c :: d :: rest) = some op ∧ op.isAssignment = false ∧
        op.length = 1 := by
  simp only [joiners, List.mem_cons, List.not_mem_nil, or_false, not_or] at apart
  obtain ⟨noEquals, noBar, -, -⟩ := apart
  simp only [signs, List.mem_cons, List.not_mem_nil, or_false] at isSign
  rcases isSign with rfl | rfl | rfl | rfl | rfl | rfl | rfl | rfl | rfl
  · exact .inr ⟨.less, by simp [Operator.longestAt?, noEquals], rfl, rfl⟩
  · exact .inr ⟨.greater, by simp [Operator.longestAt?, noEquals], rfl, rfl⟩
  · exact .inr ⟨.add, by simp [Operator.longestAt?, noEquals], rfl, rfl⟩
  · exact .inr ⟨.sub, by simp [Operator.longestAt?, noEquals], rfl, rfl⟩
  · exact .inr ⟨.mul, by simp [Operator.longestAt?, noEquals], rfl, rfl⟩
  · exact .inr ⟨.div, by simp [Operator.longestAt?, noEquals], rfl, rfl⟩
  · exact .inr ⟨.mod, rfl, rfl, rfl⟩
  · exact .inr ⟨.not, by simp [Operator.longestAt?, noEquals], rfl, rfl⟩
  · exact .inl (by simp [Operator.longestAt?, noBar])

theorem not_operator_of_isQuiet {level : Level} (isQuiet : level.isQuiet c = true)
    (shallow : level ≠ .block) : c ∉ operatorStarts := by
  intro start
  have each : ∀ c ∈ operatorStarts, ∀ level ∈ [Level.value, .list], level.isQuiet c = false := by
    decide
  have loud : level.isQuiet c = false := by
    cases level with
    | value => exact each c start .value (by decide)
    | list => exact each c start .list (by decide)
    | block => contradiction
  rw [loud] at isQuiet
  contradiction

theorem findAssignment_brackets : CountsBrackets (findAssignment 0 .outside) consSplit := by
  intro c member depth rest
  simp only [brackets, List.tail_cons, List.mem_cons, List.not_mem_nil, or_false] at member
  rcases member with rfl | rfl | rfl | rfl | rfl | rfl <;> rfl

/-- Looking for an assignment. Outside of brackets there are none but in statements. -/
def assignmentPass : Pass Int (Option (List Char × Operator × List Char)) where
  scan := findAssignment 0
  cons := consSplit
  raised _ depth := depth + 1
  admits level depth := 0 ≤ depth ∧ (level ≠ .block ∨ 0 < depth)
  scan_inside _ _ _ := rfl
  scan_escaped _ _ _ := rfl
  scan_quote _ _ := rfl
  scan_quiet := by
    intro level depth admitted c isQuiet rest
    have plain := List.not_mem_of_not_mem_cons (not_bracket_of_isQuiet isQuiet)
    rcases admitted.2 with shallow | deep
    · exact findAssignment_plain plain (longestAt_none (not_operator_of_isQuiet isQuiet shallow) rest)
        depth
    · exact findAssignment_deep plain (by omega) rest
  scan_sign := by
    intro level depth admitted c d isSign apart rest
    have plain := not_bracket_of_sign isSign
    by_cases deep : depth = 0
    · subst deep
      rcases longestAt_sign isSign apart rest with none | ⟨op, found, other, length⟩
      · exact findAssignment_plain plain none 0
      · rw [findAssignment_operator plain found other, length]
    · exact findAssignment_deep plain deep _
  scan_pair := by
    intro level depth admitted op isPair allowed rest
    by_cases deep : depth = 0
    · subst deep
      have other : op.isAssignment = false := by
        refine Bool.eq_false_iff.mpr fun isAssignment => ?_
        exact admitted.2.elim (fun shallow => shallow (allowed isAssignment)) (by omega)
      cases op <;> first | contradiction | rfl
    · refine scan_plain _ (fun c member rest => ?_) rest
      exact findAssignment_deep (not_bracket_of_pair isPair c member) deep rest
  scan_opener found depth rest := (findAssignment_brackets.pair found depth rest).1
  scan_closer _ _ _ found _ rest := (findAssignment_brackets.pair found _ rest).2
  admits_list admitted _ _ _ := ⟨by omega, .inr (by omega)⟩
  admits_block admitted := ⟨by omega, .inr (by omega)⟩

end Assignments

/-! ### Cutting into statements -/

section Statements

variable {c : Char} {depth : Nat × Nat} {rest : List Char}

/-- A character of code that stays in its statement and opens no comment. -/
theorem held_code (inside : (Mark.code c).bounds depth = false)
    (noLine : c = '/' → rest.head? ≠ some '/') (noBlock : c = '/' → rest.head? ≠ some '*') :
    heldFrom depth (marks .code (c :: rest)) =
      (heldFrom (bracketsBehind depth ⟨c, false⟩) (marks (.behindCode c) rest)).map (c :: ·) id := by
  rw [marks_code noLine noBlock, heldFrom_cons inside]
  rfl

/-- One that leaves the place as it is. -/
theorem held_plain (plain : c ∉ brackets) (inside : (Mark.code c).bounds depth = false)
    (noLine : c = '/' → rest.head? ≠ some '/') (noBlock : c = '/' → rest.head? ≠ some '*') :
    heldFrom depth (marks .code (c :: rest)) =
      (heldFrom depth (marks .code rest)).map (c :: ·) id := by
  simp only [brackets, List.mem_cons, List.not_mem_nil, or_false, not_or] at plain
  rw [held_code inside noLine noBlock]
  simp [bracketsBehind, Zone.behindCode, plain]

theorem bounds_false (depth : Nat × Nat) (other : c ∉ ['\x7d', '\n', ';']) :
    (Mark.code c).bounds depth = false := by
  simp only [List.mem_cons, List.not_mem_nil, or_false, not_or] at other
  simp [Mark.bounds, Mark.ends, Mark.isBreak, other]

/-- Cutting into statements. A block is inside of braces. -/
def heldPass : Pass (Nat × Nat) (List Char × (Nat × Nat) × List Mark) where
  scan quote depth text := heldFrom depth (marks (.ofQuote quote) text)
  cons c := Prod.map (c :: ·) id
  raised c depth :=
    if c = '\x7b' then (depth.1 + 1, depth.2) else if c = '(' then (depth.1, depth.2 + 1) else depth
  admits level depth := level = .block → 1 ≤ depth.1
  scan_inside depth c rest := by
    show heldFrom depth (marks .literal (c :: rest)) = _
    rw [marks, Zone.behindLiteral_eq]
    rfl
  scan_escaped depth c rest := by
    show heldFrom depth (marks .escape (c :: rest)) = _
    rw [marks]
    rfl
  scan_quote _ _ := rfl
  scan_quiet := by
    intro level depth admitted c isQuiet rest
    obtain ⟨noSlash, plain⟩ := not_or.mp (mt List.mem_cons.mpr (not_bracket_of_isQuiet isQuiet))
    have inside : (Mark.code c).bounds depth = false := by
      refine Bool.eq_false_iff.mpr fun bound => ?_
      have noBrace : c ≠ '\x7d' := (ne_of_mem_of_not_mem (by decide) plain).symm
      have bound : (c = ';' ∨ c = '\n') ∧ depth = (0, 0) := by
        simpa [Mark.bounds, Mark.ends, Mark.isBreak, noBrace, or_and_right] using bound
      have inBlock : level = .block := by
        rcases bound.1 with rfl | rfl <;> cases level <;> first | rfl | contradiction
      exact Nat.ne_of_gt (admitted inBlock) (by rw [bound.2])
    exact held_plain plain inside (fun slash => absurd slash noSlash)
      (fun slash => absurd slash noSlash)
  scan_sign := by
    intro level depth _ c d isSign apart rest
    have each : ∀ c ∈ signs, c ∉ ['\x7d', '\n', ';'] := by decide
    refine held_plain (not_bracket_of_sign isSign) (bounds_false _ (each c isSign)) ?_ ?_ <;>
    · rintro - ⟨⟩
      exact apart (by decide)
  scan_pair := by
    intro level depth _ op isPair _ rest
    by_cases slash : op = .divAssign
    · subst slash
      rfl
    · have each : ∀ op ∈ pairs, op ≠ .divAssign → ∀ c ∈ op.spelling.toList,
          c ≠ '/' ∧ c ∉ ['\x7d', '\n', ';'] := by decide
      refine @scan_plain _ (fun text => heldFrom depth (marks .code text)) _ _
        (fun c member rest => ?_) rest
      obtain ⟨noSlash, inside⟩ := each op isPair slash c member
      exact held_plain (not_bracket_of_pair isPair c member) (bounds_false _ inside)
        (fun slash => absurd slash noSlash) (fun slash => absurd slash noSlash)
  scan_opener := by
    intro opener closer found depth rest
    rcases bracketPairs_cases found with ⟨rfl, rfl⟩ | ⟨rfl, rfl⟩ | ⟨rfl, rfl⟩ <;> rfl
  scan_closer := by
    intro level depth admitted opener closer found inBlock rest
    rcases bracketPairs_cases found with ⟨rfl, rfl⟩ | ⟨rfl, rfl⟩ | ⟨rfl, rfl⟩
    · have deep : depth ≠ (0, 0) := fun zero =>
        Nat.ne_of_gt (admitted (inBlock rfl)) (by rw [zero])
      refine held_code ?_ (fun slash => absurd slash (by decide))
        (fun slash => absurd slash (by decide))
      simp [Mark.bounds, Mark.ends, Mark.isBreak, bracketsBehind, Mark.glyph, deep]
    · rfl
    · rfl
  admits_list _ _ _ _ absurd := nomatch absurd
  admits_block := by
    intro depth admitted _
    exact Nat.le_succ_of_le (admitted rfl)

theorem foldr_held {α : Type} (text : List Char) (result : List Char × α) :
    text.foldr (fun c => Prod.map (c :: ·) id) result = result.map (text ++ ·) id := by
  induction text with
  | nil => rfl
  | cons c rest ih =>
    rw [List.foldr_cons, ih]
    rfl

theorem stays_of_passable {level : Level} (expression : level ≠ .block) {text : List Char}
    (passable : Passable level text) : Stays text (0, 0) := by
  intro rest
  have admitted : heldPass.admits level (0, 0) := fun block => absurd block expression
  exact (heldPass.passes passable admitted rest).trans (foldr_held text _)

end Statements

end TypedScript
