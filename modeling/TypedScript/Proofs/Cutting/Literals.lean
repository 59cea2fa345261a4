/-
**Where a literal ends.** Cutting a script into statements, taking a region, cutting at commas,
looking for an assignment and reading an expression all pass over string literals. They agree on
where one ends, or that it never does, whatever backslashes stand in it.
-/

import TypedScript.Proofs.Printing.Escapes

namespace TypedScript

open Text

variable {c : Char} {text body front rest : List Char} {quote : Quote}

/-! ### Passing over a literal -/

/-- The mode in which a splitter reads on. -/
def Text.Quote.mode : Quote → Mode
  | .outside => .code
  | .inside => .quoted
  | .escaped => .escaped

/-- Behind a text that starts outside of literals, every reader stands as given with respect to
them. Each tells so in its own way: the splitter by its mode, the reader of a region by taking in the
character behind a backslash, that of a list by a flag, and that of an assignment by the number of
characters to be passed. Only the reader of expressions does not stop inside of a literal. -/
structure Stands (front : List Char) (quote : Quote) : Prop where
  splitter : ∀ splitter : Splitter, splitter.mode = .code →
    (front.foldl Splitter.step splitter).mode = quote.mode
  region : ∀ opener closer depth rest, regionFrom opener closer false depth (front ++ rest) =
    front.foldr consCut (regionAt opener closer depth quote rest)
  arguments : ∀ depth rest, piecesFrom argumentBrackets false false depth (front ++ rest) =
    front.foldr consPiece
      (piecesFrom argumentBrackets quote.inString quote.isEscaped depth rest)
  assignment : ∀ depth rest, assignmentFrom 0 false depth (front ++ rest) =
    front.foldr consSplit (assignmentFrom quote.passed quote.inString depth rest)

theorem mode_step {splitter : Splitter} (inside : quote ≠ .outside)
    (same : splitter.mode = quote.mode) : (splitter.step c).mode = (quote.step c).mode := by
  cases quote with
  | outside => contradiction
  | inside =>
    rw [Splitter.step, same]
    dsimp only [Quote.mode, Quote.step]
    by_cases escapes : c = '\\'
    · subst escapes
      rfl
    · rw [if_neg escapes, if_neg escapes]
      split_ifs
      · rfl
      · exact same
      · exact same
  | escaped =>
    rw [Splitter.step, same]
    rfl

theorem mode_unended {splitter : Splitter} (same : splitter.mode = quote.mode)
    (unended : ∀ k < body.length, quote.run (body.take k) ≠ .outside) :
    (body.foldl Splitter.step splitter).mode = (quote.run body).mode := by
  induction body generalizing splitter quote with
  | nil => exact same
  | cons c more ih =>
    exact ih (mode_step (unended 0 (Nat.succ_pos _)) same) fun k small =>
      unended (k + 1) (Nat.succ_lt_succ small)

/-- Up to its end a literal is taken in character by character. -/
theorem scan_unended {Result : Type} (scan : Quote → List Char → Result)
    (cons : Char → Result → Result)
    (opens : ∀ rest, scan .outside ('"' :: rest) = cons '"' (scan .inside rest))
    (inside : ∀ c rest, scan .inside (c :: rest) = cons c (scan (Quote.inside.step c) rest))
    (escaped : ∀ c rest, scan .escaped (c :: rest) = cons c (scan .inside rest))
    (unended : ∀ k < body.length, Quote.inside.run (body.take k) ≠ .outside) (rest : List Char) :
    scan .outside ('"' :: body ++ rest) =
      ('"' :: body).foldr cons (scan (Quote.inside.run body) rest) := by
  rw [List.cons_append, opens, List.foldr_cons]
  congr 1
  generalize Quote.inside = quote at unended ⊢
  induction body generalizing quote with
  | nil => rfl
  | cons c more ih =>
    have behind := ih _ fun k small => unended (k + 1) (Nat.succ_lt_succ small)
    cases quote with
    | outside => exact absurd rfl (unended 0 (Nat.succ_pos _))
    | inside => exact (inside c _).trans (congrArg (cons c) behind)
    | escaped => exact (escaped c _).trans (congrArg (cons c) behind)

theorem stands_unended (unended : ∀ k < body.length, Quote.inside.run (body.take k) ≠ .outside) :
    Stands ('"' :: body) (Quote.inside.run body) where
  splitter splitter code := by
    refine mode_unended ?_ unended
    rw [Splitter.step, code]
    rfl
  region opener closer depth := by
    refine scan_unended (regionAt opener closer depth) consCut (fun rest => rfl) ?_ ?_ unended <;>
    · intro c rest
      rw [regionAt_eq, regionAt_eq]
      rfl
  arguments depth rest := by
    rw [piecesFrom_eq]
    refine (piecesFrom_eq argumentBrackets .outside depth _).trans ?_
    exact scan_unended (argumentPass.scan · depth) consPiece (argumentPass.scan_quote depth)
      (argumentPass.scan_inside depth) (argumentPass.scan_escaped depth) unended rest
  assignment depth rest := by
    have behind := assignmentFrom_eq 0 (Quote.inside.run body) depth rest (.inl rfl)
    rw [Nat.zero_add] at behind
    rw [behind]
    refine (assignmentFrom_eq 0 .outside depth _ (.inl rfl)).trans ?_
    exact scan_unended (assignmentPass.scan · depth) consSplit (assignmentPass.scan_quote depth)
      (assignmentPass.scan_inside depth) (assignmentPass.scan_escaped depth) unended rest

/-- Before the quote that closes a literal a pass stays in it. -/
theorem run_take_closing (inside : quote ≠ .outside) {k : Nat}
    (before : k ≤ (quote.closing text).elim text.length fun cut => cut.1.length) :
    quote.run (text.take k) ≠ .outside := by
  induction text generalizing quote k with
  | nil => rwa [List.take_nil]
  | cons c more ih =>
    cases k with
    | zero => exact inside
    | succ k =>
      rw [Quote.closing] at before
      split at before
      · contradiction
      · rename_i goesOn
        refine ih goesOn ?_
        cases cut : (quote.step c).closing more with
        | none | some =>
          rw [cut] at before
          exact Nat.le_of_succ_le_succ before

/-! ### All readers -/

/-- **All readers agree on where a literal ends.** Behind an opening quote there is one place up to
which each of them stands inside of the literal. At that place all are outside again, and the reader
of expressions goes on there with what the literal denotes. Or there is no such place, and no reader
ever leaves the literal. -/
theorem literal_scanned_alike (text : List Char) :
    ∃ body rest, text = body ++ rest ∧
      (∀ k < body.length, Quote.inside.run (body.take k) ≠ .outside) ∧
      (∀ k ≤ body.length, Stands ('"' :: body.take k) (Quote.inside.run (body.take k))) ∧
      ((Quote.inside.run body = .outside ∧ ∃ inner, body = inner ++ ['"'] ∧
          decodeFrom 0 text = some (unescape inner, rest) ∧
          ∀ readers line scan passed, scanTokens readers line 0 scan passed ('"' :: text) =
            scan.pushValue (.text (String.ofList (unescape inner))) line >>= fun next =>
              scanTokens readers line 0 next (('"' :: body).reverse ++ passed) rest) ∨
        (Quote.inside.run body ≠ .outside ∧ rest = [] ∧ decodeFrom 0 text = none ∧
          ∀ readers line scan passed, scanTokens readers line 0 scan passed ('"' :: text) =
            .fail (.expectedToken "\"") line)) := by
  have stands {body : List Char}
      (unended : ∀ k < body.length, Quote.inside.run (body.take k) ≠ .outside) (k : Nat) :
      Stands ('"' :: body.take k) (Quote.inside.run (body.take k)) := by
    refine stands_unended fun j small => ?_
    rw [List.length_take] at small
    rw [List.take_take, min_eq_left (by omega)]
    exact unended j (by omega)
  cases cut : Quote.closing .inside text with
  | some found =>
    obtain ⟨inner, rest⟩ := found
    obtain ⟨whole, ends⟩ := closing_eq_some cut (by decide)
    have unended : ∀ k < (inner ++ ['"']).length,
        Quote.inside.run ((inner ++ ['"']).take k) ≠ .outside := by
      intro k small
      have before : k ≤ inner.length := by simpa [Nat.lt_succ_iff] using small
      have inside : Quote.inside.run (text.take k) ≠ .outside :=
        run_take_closing (by decide) (by rw [cut]; exact before)
      rw [whole, List.take_append_of_le_length before] at inside
      rwa [List.take_append_of_le_length before]
    refine ⟨inner ++ ['"'], rest, by rw [whole]; simp, unended, fun k _ => stands unended k,
      .inl ⟨ends, inner, rfl, by rw [decodeFrom_eq, cut]; rfl, fun readers line scan passed =>
        scanTokens_closing cut passed⟩⟩
  | none =>
    have inside {k : Nat} (before : k ≤ text.length) : Quote.inside.run (text.take k) ≠ .outside :=
      run_take_closing (by decide) (by rw [cut]; exact before)
    have unended : ∀ k < text.length, Quote.inside.run (text.take k) ≠ .outside :=
      fun k small => inside small.le
    have open' := inside (Nat.le_refl text.length)
    rw [List.take_length] at open'
    have never : decodeFrom 0 text = none := by rw [decodeFrom_eq, cut, Option.map_none]
    refine ⟨text, [], by simp, unended, fun k _ => stands unended k,
      .inr ⟨open', rfl, never, fun readers line scan passed => ?_⟩⟩
    rw [scanTokens, if_neg (by decide), if_pos rfl, never]
    rfl

end TypedScript
