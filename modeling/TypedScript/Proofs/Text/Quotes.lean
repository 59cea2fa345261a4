/-
**String literals in running text.** Every reader of a script has to know which characters stand
inside of a string literal, and each has its own way to tell: it takes in the character behind a
backslash at once, keeps a flag for it, or counts the characters to be passed. `Text.Quote` is one
automaton for all of them: a backslash inside of a literal takes the next character with it, whatever
that is.
-/

import TypedScript.Source.Assignment
import TypedScript.Source.Lists
import TypedScript.Text.Balanced

namespace TypedScript.Text

/-- Where a reader stands with respect to string literals. -/
inductive Quote where
  /-- In code. -/
  | outside
  /-- Between the quotes of a literal. -/
  | inside
  /-- Just after a backslash in a literal. -/
  | escaped
  deriving DecidableEq, Repr

/-- The state after one more character. -/
def Quote.step : Quote → Char → Quote
  | .outside, c => if c = '"' then .inside else .outside
  | .inside, c => if c = '"' then .outside else if c = '\\' then .escaped else .inside
  | .escaped, _ => .inside

/-- The state after a whole text. -/
def Quote.run (quote : Quote) (text : List Char) : Quote :=
  text.foldl Quote.step quote

/-- Reads the rest of a literal from inside it: the characters before the closing quote, and the
text after that quote. There is no result if the literal never ends. -/
def Quote.closing : Quote → List Char → Option (List Char × List Char)
  | _, [] => none
  | quote, c :: rest =>
    match quote.step c with
    | .outside => some ([], rest)
    | next => consCut c (Quote.closing next rest)

/-- What a character inside of a literal can be. -/
theorem Quote.step_inside (c : Char) :
    (c = '\\' ∧ Quote.inside.step c = .escaped) ∨ (c = '"' ∧ Quote.inside.step c = .outside) ∨
      (c ≠ '\\' ∧ (c != '"') = true ∧ Quote.inside.step c = .inside) := by
  unfold Quote.step
  by_cases escapes : c = '\\'
  · subst escapes
    exact .inl ⟨rfl, rfl⟩
  · by_cases closes : c = '"'
    · subst closes
      exact .inr (.inl ⟨rfl, rfl⟩)
    · exact .inr (.inr ⟨escapes, by simpa using closes, by simp [escapes, closes]⟩)

/-! ### Regions -/

/-- Reads on inside a region, `depth` brackets below its opening one. -/
def balancedTail (opener closer : Char) : Quote → Nat → List Char → Option (List Char × List Char)
  | _, _, [] => none
  | .outside, depth, c :: rest =>
    if c = '"' then consCut c (balancedTail opener closer .inside depth rest)
    else if c = opener then consCut c (balancedTail opener closer .outside (depth + 1) rest)
    else if c = closer then
      match depth with
      | 0 => some ([], rest)
      | outer + 1 => consCut c (balancedTail opener closer .outside outer rest)
    else consCut c (balancedTail opener closer .outside depth rest)
  | quote, depth, c :: rest => consCut c (balancedTail opener closer (quote.step c) depth rest)

/-- The reader of a region from a place on. Behind a backslash it takes in the next character. -/
def regionAt (opener closer : Char) (depth : Nat) : Quote → List Char →
    Option (List Char × List Char)
  | .outside, text => regionFrom opener closer false depth text
  | .inside, text => regionFrom opener closer true depth text
  | .escaped, [] => none
  | .escaped, c :: rest => consCut c (regionFrom opener closer true depth rest)

theorem regionAt_inside (opener closer : Char) (depth : Nat) (c : Char) (rest : List Char) :
    regionAt opener closer depth .inside (c :: rest) =
      consCut c (regionAt opener closer depth (Quote.inside.step c) rest) := by
  obtain ⟨rfl, -⟩ | ⟨rfl, -⟩ | ⟨noEscape, goesOn, stays⟩ := Quote.step_inside c
  · cases rest <;> rfl
  · rfl
  · rw [stays, regionAt, regionFrom, goesOn]
    · rfl
    · rintro _ _ rfl
      exact absurd rfl noEscape

/-- **The reader of a region simulates the automaton.** -/
theorem regionAt_eq (opener closer : Char) (depth : Nat) (quote : Quote) (text : List Char) :
    regionAt opener closer depth quote text = balancedTail opener closer quote depth text := by
  induction text generalizing quote depth with
  | nil => cases quote <;> rfl
  | cons c rest ih =>
    cases quote with
    | outside =>
      have code (depth : Nat) := ih depth .outside
      have literal := ih depth .inside
      simp only [regionAt] at code literal ⊢
      unfold regionFrom balancedTail
      cases depth <;> simp only [code, literal]
    | inside => rw [regionAt_inside, ih, balancedTail]; simp
    | escaped => exact congrArg (consCut c) (ih depth .inside)

theorem balanced_cons (opener closer first : Char) (rest : List Char) :
    balanced opener closer (first :: rest) =
      if first = opener then balancedTail opener closer .outside 0 rest else none := by
  rw [balanced]
  exact congrArg (if first = opener then · else none) (regionAt_eq opener closer 0 .outside rest)

end TypedScript.Text

namespace TypedScript

open Text

/-! ### Lists -/

/-- The pieces of a text between commas at depth 0; there is always at least one. -/
def pieces (brackets : Brackets) : Quote → Int → List Char → List (List Char)
  | _, _, [] => [[]]
  | .outside, depth, c :: rest =>
    if c = ',' && depth = 0 then [] :: pieces brackets .outside depth rest
    else
      let quote := if brackets.quotes then Quote.outside.step c else .outside
      consPiece c (pieces brackets quote (depth + brackets.change c) rest)
  | quote, depth, c :: rest => consPiece c (pieces brackets (quote.step c) depth rest)

/-- Whether a reader that keeps a flag for it is in a literal. -/
def Text.Quote.inString : Quote → Bool
  | .outside => false
  | _ => true

/-- Whether a reader that keeps a flag for it is behind a backslash. -/
def Text.Quote.isEscaped (quote : Quote) : Bool :=
  quote = .escaped

/-- **The reader of a list simulates the automaton.** -/
theorem piecesFrom_eq (brackets : Brackets) (quote : Quote) (depth : Int) (text : List Char) :
    piecesFrom brackets quote.inString quote.isEscaped depth text =
      pieces brackets quote depth text := by
  induction text generalizing quote depth with
  | nil => cases quote <;> rfl
  | cons c rest ih =>
    cases quote with
    | outside =>
      by_cases cuts : (c = ',' && depth = 0) = true
      · rw [pieces, if_pos cuts, ← ih .outside]
        exact if_pos cuts
      · rw [pieces, if_neg cuts]
        dsimp only
        rw [← ih]
        refine (if_neg cuts).trans ?_
        cases brackets.quotes with
        | false => rfl
        | true =>
          by_cases quoted : c = '"'
          · subst quoted
            rfl
          · rw [Bool.true_and, beq_false_of_ne quoted, if_pos rfl, Quote.step, if_neg quoted]
            rfl
    | inside =>
      show _ = consPiece c (pieces brackets (Quote.inside.step c) depth rest)
      rw [← ih]
      obtain ⟨rfl, -⟩ | ⟨rfl, -⟩ | ⟨noEscape, goesOn, stays⟩ := Quote.step_inside c
      · rfl
      · rfl
      · show piecesFrom brackets true false depth (c :: rest) = _
        rw [stays, piecesFrom, if_neg Bool.false_ne_true, if_neg noEscape, goesOn]
        rfl
    | escaped => exact congrArg (consPiece c) (ih .inside depth)

theorem trimmedPieces_eq (brackets : Brackets) (text : List Char) :
    trimmedPieces brackets text =
      let pieces := (pieces brackets .outside 0 text).map trim
      if pieces.getLast? = some [] then pieces.dropLast else pieces := by
  rw [← piecesFrom_eq]
  rfl

/-! ### Assignments -/

/-- Looks for the operator from a depth on. The first `skip` characters belong to an operator that
was passed already. -/
def findAssignment : Nat → Quote → Int → List Char → Option (List Char × Operator × List Char)
  | _, _, _, [] => none
  | skip + 1, quote, depth, c :: rest => consSplit c (findAssignment skip quote depth rest)
  | 0, .outside, depth, c :: rest =>
    if c = '"' then consSplit c (findAssignment 0 .inside depth rest)
    else if bracketChange c ≠ 0 then
      consSplit c (findAssignment 0 .outside (depth + bracketChange c) rest)
    else
      match if depth = 0 then Operator.longestAt? (c :: rest) else none with
      | none => consSplit c (findAssignment 0 .outside depth rest)
      | some op =>
        if op.isAssignment && !startsWithArrow (c :: rest) then
          some ([], op, rest.drop (op.length - 1))
        else consSplit c (findAssignment (op.length - 1) .outside depth rest)
  | 0, quote, depth, c :: rest => consSplit c (findAssignment 0 (quote.step c) depth rest)

/-- How many characters a reader that counts them passes. -/
def Text.Quote.passed : Quote → Nat
  | .escaped => 1
  | _ => 0

/-- **The reader of an assignment simulates the automaton**, be it behind a part of an operator or
not. -/
theorem assignmentFrom_eq (skip : Nat) (quote : Quote) (depth : Int) (text : List Char)
    (whole : skip = 0 ∨ quote = .outside) :
    assignmentFrom (skip + quote.passed) quote.inString depth text =
      findAssignment skip quote depth text := by
  induction text generalizing skip quote depth with
  | nil => cases quote <;> simp [assignmentFrom, findAssignment]
  | cons c rest ih =>
    have code (skip : Nat) (depth : Int) : assignmentFrom skip false depth rest =
      findAssignment skip .outside depth rest := ih skip .outside depth (.inr rfl)
    have literal : assignmentFrom 0 true depth rest = findAssignment 0 .inside depth rest :=
      ih 0 .inside depth (.inl rfl)
    have behind : assignmentFrom 1 true depth rest = findAssignment 0 .escaped depth rest :=
      ih 0 .escaped depth (.inl rfl)
    cases skip with
    | succ skip =>
      obtain rfl : quote = .outside := whole.resolve_left (Nat.succ_ne_zero skip)
      exact congrArg (consSplit c) (code skip depth)
    | zero =>
      cases quote with
      | outside =>
        show assignmentFrom 0 false depth (c :: rest) = _
        rw [assignmentFrom, findAssignment]
        generalize (if depth = 0 then Operator.longestAt? (c :: rest) else none) = found
        cases found <;> simp only [code, literal]
      | inside =>
        show assignmentFrom 0 true depth (c :: rest) =
          consSplit c (findAssignment 0 (Quote.inside.step c) depth rest)
        obtain ⟨rfl, -⟩ | ⟨rfl, -⟩ | ⟨noEscape, goesOn, stays⟩ := Quote.step_inside c
        · exact congrArg (consSplit _) behind
        · exact congrArg (consSplit _) (code 0 depth)
        · rw [stays, assignmentFrom, if_neg noEscape, goesOn, literal]
      | escaped => exact congrArg (consSplit c) literal

theorem splitAssignment_eq (text : List Char) :
    splitAssignment text = findAssignment 0 .outside 0 text :=
  assignmentFrom_eq 0 .outside 0 text (.inr rfl)

end TypedScript
