/-
**Where a cut lies.** Readers cut texts out of a text: what stands between brackets or quotes, and
the pieces between commas. Each of them is found again in the text, with what was passed before it.
-/

import TypedScript.Proofs.Text.Quotes
import TypedScript.Proofs.Text.Trimming
import TypedScript.Text.Cursor

namespace TypedScript.Text

variable {opener closer : Char} {quote : Quote} {text interior rest : List Char}

theorem consCut_eq_some {c : Char} {cut : Option (List Char × List Char)} {front back : List Char}
    (found : consCut c cut = some (front, back)) :
    ∃ rest, front = c :: rest ∧ cut = some (rest, back) := by
  obtain ⟨⟨rest, behind⟩, inside, same⟩ := Option.map_eq_some_iff.mp found
  obtain ⟨rfl, rfl⟩ := Prod.mk.inj same
  exact ⟨rest, rfl, inside⟩

theorem foldr_consCut (text : List Char) (cut : Option (List Char × List Char)) :
    text.foldr consCut cut = cut.map fun found => (text ++ found.1, found.2) := by
  induction text with
  | nil => cases cut <;> rfl
  | cons c more ih =>
    rw [List.foldr_cons, ih]
    cases cut <;> rfl

/-- **A text is its trimmed text** between blanks. -/
theorem trim_eq (text : List Char) : ∃ before after : List Char,
    (∀ c ∈ before, isBlank c = true) ∧ (∀ c ∈ after, isBlank c = true) ∧
      text = before ++ trim text ++ after := by
  obtain ⟨after, blank, whole⟩ := trimEnd_append_blanks (trimStart text)
  refine ⟨text.takeWhile isBlank, after, fun c member => List.mem_takeWhile_imp member, blank, ?_⟩
  rw [List.append_assoc, trim, ← whole]
  exact List.takeWhile_append_dropWhile.symm

theorem length_trim_le (text : List Char) : (trim text).length ≤ text.length := by
  obtain ⟨before, after, _, _, whole⟩ := trim_eq text
  have lengths := congrArg List.length whole
  simp only [List.length_append] at lengths
  omega

/-! ### Brackets -/

theorem balancedTail_eq_some {depth : Nat}
    (cut : balancedTail opener closer quote depth text = some (interior, rest)) :
    text = interior ++ closer :: rest := by
  induction text generalizing quote depth interior with
  | nil => cases quote <;> contradiction
  | cons c more ih =>
    have kept {quote : Quote} {depth : Nat}
        (found : consCut c (balancedTail opener closer quote depth more) = some (interior, rest)) :
        c :: more = interior ++ closer :: rest := by
      obtain ⟨front, rfl, inside⟩ := consCut_eq_some found
      rw [List.cons_append, ih inside]
    cases quote with
    | outside =>
      unfold balancedTail at cut
      split_ifs at cut with quoted opened closed
      · exact kept cut
      · exact kept cut
      · cases depth with
        | zero =>
          obtain ⟨rfl, rfl⟩ := Prod.mk.inj (Option.some.inj cut)
          rw [closed, List.nil_append]
        | succ outer => exact kept cut
      · exact kept cut
    | inside | escaped => exact kept cut

/-- A region is its brackets around its interior. -/
theorem balanced_eq_some (cut : balanced opener closer text = some (interior, rest)) :
    text = opener :: (interior ++ closer :: rest) := by
  cases text with
  | nil => contradiction
  | cons first more =>
    rw [balanced_cons] at cut
    split_ifs at cut with opened
    rw [opened, balancedTail_eq_some cut]

theorem length_of_balanced (cut : balanced opener closer text = some (interior, rest)) :
    interior.length + 2 ≤ text.length := by
  rw [balanced_eq_some cut]
  simp only [List.length_cons, List.length_append]
  omega

namespace Cursor

@[simp] theorem advance_passed (cursor : Cursor) (n : Nat) :
    (cursor.advance n).passed = (cursor.ahead.take n).reverse ++ cursor.passed := rfl

@[simp] theorem advance_ahead (cursor : Cursor) (n : Nat) :
    (cursor.advance n).ahead = cursor.ahead.drop n := rfl

/-- **Behind a region** the cursor has passed its brackets and its interior. -/
theorem takeBalanced_eq_some {cursor after : Cursor} {opener closer : Char} {interior : List Char}
    (taken : cursor.takeBalanced opener closer = (some interior, after)) :
    balanced opener closer cursor.ahead = some (interior, after.ahead) ∧
      cursor.ahead = opener :: (interior ++ closer :: after.ahead) ∧
      after.passed = (opener :: (interior ++ [closer])).reverse ++ cursor.passed := by
  unfold takeBalanced at taken
  split at taken
  · rename_i found rest cut
    obtain ⟨same, rfl⟩ := Prod.mk.inj taken
    obtain rfl := Option.some.inj same
    have whole := balanced_eq_some cut
    have front : cursor.ahead = opener :: (found ++ [closer]) ++ rest := by rw [whole]; simp
    have length : (opener :: (found ++ [closer])).length = found.length + 2 := by simp
    have behind : (cursor.advance (found.length + 2)).ahead = rest := by
      rw [advance_ahead, front, ← length, List.drop_left]
    refine ⟨by rw [behind]; exact cut, by rw [behind]; exact whole, ?_⟩
    rw [advance_passed, front, ← length, List.take_left]
  · split at taken <;> exact nomatch (Prod.mk.inj taken).1

theorem skipBlank_eq (cursor : Cursor) : ∃ blanks : List Char,
    (∀ c ∈ blanks, isBlank c = true) ∧ cursor.ahead = blanks ++ cursor.skipBlank.ahead ∧
      cursor.skipBlank.passed = blanks.reverse ++ cursor.passed := by
  have whole := List.takeWhile_append_dropWhile (p := isBlank) (l := cursor.ahead)
  set blanks := cursor.ahead.takeWhile isBlank with found
  have skips : cursor.skipBlank = cursor.advance blanks.length := rfl
  refine ⟨blanks, fun c member => List.mem_takeWhile_imp member, ?_, ?_⟩
  · rw [skips, advance_ahead, ← whole, List.drop_left]
  · rw [skips, advance_passed, ← whole, List.take_left]

end Cursor

/-! ### Literals -/

/-- The body of a literal and its closing quote. -/
theorem closing_eq_some {body : List Char} (cut : quote.closing text = some (body, rest))
    (inside : quote ≠ .outside) :
    text = body ++ '"' :: rest ∧ quote.run (body ++ ['"']) = .outside := by
  induction text generalizing quote body with
  | nil => cases quote <;> contradiction
  | cons c more ih =>
    rw [Quote.closing] at cut
    split at cut
    · rename_i ends
      obtain ⟨rfl, rfl⟩ := Prod.mk.inj (Option.some.inj cut)
      have closes : c = '"' := by
        cases quote with
        | outside | escaped => contradiction
        | inside =>
          by_contra other
          rw [Quote.step, if_neg other] at ends
          split_ifs at ends
      subst closes
      exact ⟨rfl, ends⟩
    · rename_i goesOn
      obtain ⟨front, rfl, found⟩ := consCut_eq_some cut
      obtain ⟨rfl, closed⟩ := ih found goesOn
      exact ⟨rfl, closed⟩

end TypedScript.Text

namespace TypedScript

open Text

variable {text piece left right : List Char} {c : Char} {op : Operator}

/-! ### Lists -/

theorem intercalate_consPiece (c : Char) {list : List (List Char)} (present : list ≠ []) :
    [','].intercalate (consPiece c list) = c :: [','].intercalate list := by
  obtain ⟨piece, others, rfl⟩ := List.exists_cons_of_ne_nil present
  cases others <;> rfl

theorem pieces_ne_nil (brackets : Brackets) (quote : Quote) (depth : Int) (text : List Char) :
    pieces brackets quote depth text ≠ [] := by
  have cons (c : Char) (list : List (List Char)) : consPiece c list ≠ [] := by
    cases list <;> exact List.cons_ne_nil _ _
  cases text with
  | nil => cases quote <;> exact List.cons_ne_nil _ _
  | cons c rest =>
    cases quote with
    | outside =>
      rw [pieces]
      split_ifs
      · exact List.cons_ne_nil _ _
      · exact cons _ _
      · exact cons _ _
    | inside | escaped => exact cons _ _

/-- The pieces of a list, with their commas, are the list. -/
theorem intercalate_pieces (brackets : Brackets) (quote : Quote) (depth : Int) (text : List Char) :
    [','].intercalate (pieces brackets quote depth text) = text := by
  induction text generalizing quote depth with
  | nil => cases quote <;> rfl
  | cons c rest ih =>
    have kept (quote : Quote) (depth : Int) :
        [','].intercalate (consPiece c (pieces brackets quote depth rest)) = c :: rest := by
      rw [intercalate_consPiece c (pieces_ne_nil _ _ _ _), ih]
    cases quote with
    | outside =>
      rw [pieces]
      split_ifs with comma
      · rw [Bool.and_eq_true, decide_eq_true_eq] at comma
        rw [comma.1, List.intercalate_cons_of_ne_nil (pieces_ne_nil _ _ _ _), ih]
        rfl
      · exact kept _ _
      · exact kept _ _
    | inside | escaped => exact kept _ _

theorem intercalate_append_cons (front back : List (List Char)) (piece : List Char) :
    [','].intercalate (front ++ piece :: back) =
      front.flatMap (· ++ [',']) ++ piece ++ back.flatMap (',' :: ·) := by
  induction front with
  | nil =>
    induction back generalizing piece with
    | nil => simp [List.intercalate]
    | cons next others ih =>
      rw [List.nil_append, List.intercalate_cons_of_ne_nil (List.cons_ne_nil _ _)]
      have rest := ih next
      rw [List.nil_append] at rest
      rw [rest]
      simp
  | cons first others ih =>
    rw [List.cons_append, List.intercalate_cons_of_ne_nil (by simp), ih]
    simp

theorem trim_mem_trimmedPieces {brackets : Brackets}
    (member : piece ∈ pieces brackets .outside 0 text) (shown : trim piece ≠ []) :
    trim piece ∈ trimmedPieces brackets text := by
  have among := List.mem_map_of_mem (f := trim) member
  rw [trimmedPieces_eq]
  dsimp only
  split_ifs with last
  · obtain ⟨front, whole⟩ := List.getLast?_eq_some_iff.mp last
    rw [whole] at among ⊢
    rw [List.dropLast_concat]
    exact (List.mem_append.mp among).resolve_right (by simpa using shown)
  · exact among

theorem length_of_mem_splitArguments (member : piece ∈ splitArguments text) :
    piece.length ≤ text.length := by
  have among : piece ∈ (pieces argumentBrackets .outside 0 text).map trim := by
    rw [splitArguments, trimmedPieces_eq] at member
    dsimp only at member
    split_ifs at member
    · exact (List.dropLast_sublist _).subset member
    · exact member
  obtain ⟨whole, present, rfl⟩ := List.mem_map.mp among
  obtain ⟨front, back, cut⟩ := List.append_of_mem present
  refine (length_trim_le whole).trans ?_
  rw [← intercalate_pieces argumentBrackets .outside 0 text, cut, intercalate_append_cons]
  simp only [List.length_append]
  omega

/-! ### Assignments -/

theorem Operator.longestAt?_eq_some {rest : List Char}
    (found : Operator.longestAt? (c :: rest) = some op) :
    c :: rest = op.spelling.toList ++ rest.drop (op.length - 1) := by
  obtain ⟨more, whole⟩ : ∃ more, c :: rest = op.spelling.toList ++ more := by
    unfold Operator.longestAt? at found
    split at found <;> first
      | (obtain rfl := Option.some.inj found; exact ⟨_, ‹_›⟩)
      | contradiction
  have positive : op.length - 1 + 1 = op.spelling.toList.length := by
    cases op <;> rfl
  have behind : rest.drop (op.length - 1) = more := by
    calc rest.drop (op.length - 1) = (c :: rest).drop (op.length - 1 + 1) := rfl
      _ = more := by rw [whole, positive, List.drop_left]
  rw [behind, whole]

theorem consSplit_eq_some {split : Option (List Char × Operator × List Char)}
    (found : consSplit c split = some (left, op, right)) :
    ∃ rest, left = c :: rest ∧ split = some (rest, op, right) := by
  obtain ⟨⟨rest, op', right'⟩, inside, same⟩ := Option.map_eq_some_iff.mp found
  simp only [Prod.mk.injEq] at same
  obtain ⟨rfl, rfl, rfl⟩ := same
  exact ⟨rest, rfl, inside⟩

theorem findAssignment_eq_some {skip : Nat} {quote : Quote} {depth : Int}
    (cut : findAssignment skip quote depth text = some (left, op, right)) :
    text = left ++ op.spelling.toList ++ right := by
  induction text generalizing skip quote depth left with
  | nil =>
    unfold findAssignment at cut
    contradiction
  | cons c rest ih =>
    have kept {skip : Nat} {quote : Quote} {depth : Int}
        (found : consSplit c (findAssignment skip quote depth rest) = some (left, op, right)) :
        c :: rest = left ++ op.spelling.toList ++ right := by
      obtain ⟨front, rfl, inside⟩ := consSplit_eq_some found
      rw [List.cons_append, List.cons_append, ih inside]
    cases skip with
    | succ skip => exact kept (by rwa [findAssignment] at cut)
    | zero =>
      cases quote with
      | outside =>
        rw [findAssignment] at cut
        split_ifs at cut
        · exact kept cut
        · exact kept cut
        · split at cut
          · exact kept cut
          · rename_i first found
            split_ifs at cut
            · obtain ⟨rfl, rfl, rfl⟩ : [] = left ∧ first = op ∧ _ = right := by
                simpa using cut
              exact Operator.longestAt?_eq_some found
            · exact kept cut
        · exact kept cut
      | inside | escaped => exact kept cut

/-- Both sides of an assignment and its operator. -/
theorem splitAssignment_eq_some (cut : splitAssignment text = some (left, op, right)) :
    text = left ++ op.spelling.toList ++ right :=
  findAssignment_eq_some ((splitAssignment_eq text).symm.trans cut)

end TypedScript
