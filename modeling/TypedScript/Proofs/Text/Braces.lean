/-
**Braces in running text.** A text closes its braces if a pass over it, which skips string literals,
ends outside of literals below as many braces as it started, and never went below them. What stands
between two braces that belong together closes its braces, and so does a whole literal.
-/

import TypedScript.Proofs.Text.Regions
import TypedScript.Text.Alphabet

namespace TypedScript.Text

variable {c opener closer : Char} {quote quote' : Quote} {depth depth' : Nat}
  {body rest interior text : List Char}

/-- Where a pass over brackets of one kind stands behind one more character: in a literal or not,
and below how many brackets. -/
def bracketStep (opener closer : Char) : Quote × Nat → Char → Option (Quote × Nat)
  | (.outside, depth), c =>
    if c = '"' then some (.inside, depth)
    else if c = opener then some (.outside, depth + 1)
    else if c = closer then if depth = 0 then none else some (.outside, depth - 1)
    else some (.outside, depth)
  | (quote, depth), c => some (quote.step c, depth)

/-- Counts braces outside of literals. -/
abbrev braceStep : Quote × Nat → Char → Option (Quote × Nat) :=
  bracketStep '{' '}'

/-- All braces are paired, outside of literals. -/
def BraceClosed (text : List Char) : Prop :=
  ∀ depth, text.foldlM braceStep (.outside, depth) = some (.outside, depth)

/-- A character that is no brace and no quote. -/
def isPlain (c : Char) : Bool :=
  c != '{' && c != '}' && c != '"'

theorem isPlain_iff : isPlain c = true ↔ c ≠ '{' ∧ c ≠ '}' ∧ c ≠ '"' := by
  simp [isPlain, and_assoc]

theorem isPlain_of_class {isMember : Char → Bool} (member : isMember c = true)
    (others : isMember '{' = false ∧ isMember '}' = false ∧ isMember '"' = false) :
    isPlain c = true := by
  rw [isPlain_iff]
  refine ⟨?_, ?_, ?_⟩ <;>
  · rintro rfl
    simp [others] at member

theorem isPlain_of_isBlank (blank : isBlank c = true) : isPlain c = true :=
  isPlain_of_class blank (by decide)

theorem isPlain_of_isWordChar (word : isWordChar c = true) : isPlain c = true :=
  isPlain_of_class word (by decide)

theorem braceStep_plain (plain : isPlain c = true) (depth : Nat) :
    braceStep (.outside, depth) c = some (.outside, depth) := by
  obtain ⟨opening, closing, quote⟩ := isPlain_iff.mp plain
  simp [bracketStep, opening, closing, quote]

namespace BraceClosed

variable {front back : List Char}

theorem nil : BraceClosed [] :=
  fun _ => rfl

theorem append (first : BraceClosed front) (second : BraceClosed back) :
    BraceClosed (front ++ back) := by
  intro depth
  rw [List.foldlM_append, first depth]
  exact second depth

theorem plain (all : ∀ c ∈ text, isPlain c = true) : BraceClosed text := by
  intro depth
  induction text with
  | nil => rfl
  | cons c rest ih =>
    obtain ⟨first, others⟩ := List.forall_mem_cons.mp all
    rw [List.foldlM_cons, braceStep_plain first]
    exact ih others

theorem blanks (all : ∀ c ∈ text, isBlank c = true) : BraceClosed text :=
  plain fun c member => isPlain_of_isBlank (all c member)

theorem word (all : ∀ c ∈ text, isWordChar c = true) : BraceClosed text :=
  plain fun c member => isPlain_of_isWordChar (all c member)

theorem cons (first : isPlain c = true) (rest : BraceClosed text) : BraceClosed (c :: text) := by
  have single : BraceClosed [c] := plain (by simpa using first)
  exact single.append rest

theorem concat (rest : BraceClosed text) (last : isPlain c = true) : BraceClosed (text ++ [c]) :=
  rest.append (plain (by simpa using last))

theorem braces (inside : BraceClosed text) : BraceClosed ('{' :: (text ++ ['}'])) := by
  intro depth
  rw [List.foldlM_cons]
  show (text ++ ['}']).foldlM braceStep (.outside, depth + 1) = _
  rw [List.foldlM_append, inside]
  rfl

theorem of_trim (inside : BraceClosed (trim text)) : BraceClosed text := by
  obtain ⟨before, after, first, last, whole⟩ := trim_eq text
  rw [whole]
  exact ((blanks first).append inside).append (blanks last)

end BraceClosed

theorem bracketStep_inside (inside : quote ≠ .outside) (depth : Nat) (c : Char) :
    bracketStep opener closer (quote, depth) c = some (quote.step c, depth) := by
  cases quote with
  | outside => contradiction
  | inside | escaped => rfl

theorem bracketStep_eq_some
    (step : bracketStep opener closer (quote, depth) c = some (quote', depth')) (outer : Nat) :
    quote' = quote.step c ∧
      bracketStep opener closer (quote, depth + outer) c = some (quote', depth' + outer) := by
  cases quote with
  | outside =>
    simp only [bracketStep] at step ⊢
    split_ifs at step with quoted opened closed none <;>
      obtain ⟨rfl, rfl⟩ := Prod.mk.inj (Option.some.inj step)
    · exact ⟨by rw [quoted]; rfl, if_pos quoted⟩
    · rw [if_neg quoted, if_pos opened, Nat.add_right_comm]
      exact ⟨(if_neg quoted).symm, rfl⟩
    · rw [if_neg quoted, if_neg opened, if_pos closed, if_neg (by omega),
        Nat.sub_add_comm (Nat.pos_of_ne_zero none)]
      exact ⟨(if_neg quoted).symm, rfl⟩
    · rw [if_neg quoted, if_neg opened, if_neg closed]
      exact ⟨(if_neg quoted).symm, rfl⟩
  | inside | escaped =>
    obtain ⟨rfl, rfl⟩ := Prod.mk.inj (Option.some.inj step)
    exact ⟨rfl, rfl⟩

theorem run_of_bracketStep
    (passes : text.foldlM (bracketStep opener closer) (quote, depth) = some (quote', depth'))
    (outer : Nat) : quote.run text = quote' ∧
      text.foldlM (bracketStep opener closer) (quote, depth + outer) =
        some (quote', depth' + outer) := by
  induction text generalizing quote depth with
  | nil =>
    obtain ⟨rfl, rfl⟩ := Prod.mk.inj (Option.some.inj passes)
    exact ⟨rfl, rfl⟩
  | cons c rest ih =>
    rw [List.foldlM_cons, Option.bind_eq_bind, Option.bind_eq_some_iff] at passes
    obtain ⟨⟨next, below⟩, step, behind⟩ := passes
    obtain ⟨rfl, further⟩ := bracketStep_eq_some step outer
    rw [List.foldlM_cons, further]
    exact ih behind

theorem foldlM_braceStep_closing (cut : quote.closing text = some (body, rest))
    (inside : quote ≠ .outside) :
    (body ++ ['"']).foldlM braceStep (quote, depth) = some (.outside, depth) := by
  induction text generalizing quote body with
  | nil => cases quote <;> contradiction
  | cons c more ih =>
    have whole := (closing_eq_some cut inside).1
    rw [Quote.closing] at cut
    split at cut
    · rename_i ends
      obtain ⟨rfl, rfl⟩ := Prod.mk.inj (Option.some.inj cut)
      obtain rfl := (List.cons.inj whole).1
      rw [List.nil_append, List.foldlM_cons, braceStep, bracketStep_inside inside, ends]
      rfl
    · rename_i goesOn
      obtain ⟨front, rfl, found⟩ := consCut_eq_some cut
      rw [List.cons_append, List.foldlM_cons, braceStep, bracketStep_inside inside]
      exact ih found goesOn

/-- **A literal closes its braces**, whatever stands in it. -/
theorem braceClosed_of_closing (cut : Quote.closing .inside text = some (body, rest)) :
    BraceClosed ('"' :: (body ++ ['"'])) := by
  intro depth
  rw [List.foldlM_cons]
  exact foldlM_braceStep_closing cut (by decide)

/-- **A region ends** at the first closing bracket behind a text that closes its own brackets and
literals. -/
theorem balancedTail_eq_some_iff (distinct : closer ≠ opener) (noQuote : closer ≠ '"') :
    balancedTail opener closer quote depth text = some (interior, rest) ↔
      text = interior ++ closer :: rest ∧
        interior.foldlM (bracketStep opener closer) (quote, depth) = some (.outside, 0) := by
  induction text generalizing quote depth interior with
  | nil => cases quote <;> simp [balancedTail]
  | cons c more ih =>
    -- A character that the pass takes in is one of the interior.
    have kept {next : Quote} {below : Nat}
        (goesOn : ¬(quote = .outside ∧ depth = 0 ∧ c = closer))
        (step : bracketStep opener closer (quote, depth) c = some (next, below)) :
        consCut c (balancedTail opener closer next below more) = some (interior, rest) ↔
          c :: more = interior ++ closer :: rest ∧
            interior.foldlM (bracketStep opener closer) (quote, depth) = some (.outside, 0) := by
      cases interior with
      | nil =>
        refine iff_of_false (fun found => ?_) ?_
        · obtain ⟨_, absurd, _⟩ := consCut_eq_some found
          contradiction
        · rintro ⟨same, ends⟩
          obtain ⟨outside, closed⟩ := Prod.mk.inj (Option.some.inj ends)
          exact goesOn ⟨outside, closed, (List.cons.inj same).1⟩
      | cons d front =>
        rw [List.cons_append, List.cons.injEq, List.foldlM_cons]
        constructor
        · intro found
          obtain ⟨_, same, inside⟩ := consCut_eq_some found
          obtain ⟨rfl, rfl⟩ := List.cons.inj same
          obtain ⟨whole, ends⟩ := ih.mp inside
          exact ⟨⟨rfl, whole⟩, by rw [step]; exact ends⟩
        · rintro ⟨⟨rfl, whole⟩, ends⟩
          rw [step] at ends
          rw [ih.mpr ⟨whole, ends⟩]
          rfl
    cases quote with
    | outside =>
      unfold balancedTail
      split_ifs with quoted opened closed
      · exact kept (fun same => noQuote (same.2.2 ▸ quoted)) (if_pos quoted)
      · exact kept (fun same => distinct (same.2.2 ▸ opened))
          ((if_neg quoted).trans (if_pos opened))
      · subst closed
        have step : bracketStep opener c (.outside, depth) c =
            if depth = 0 then none else some (.outside, depth - 1) := by
          simp [bracketStep, quoted, opened]
        cases depth with
        | zero =>
          cases interior with
          | nil => simp [eq_comm]
          | cons d front =>
            refine iff_of_false (by simp) ?_
            rintro ⟨same, ends⟩
            obtain ⟨rfl, _⟩ := List.cons.inj same
            rw [List.foldlM_cons, step] at ends
            contradiction
        | succ outer => exact kept (by simp) step
      · refine kept (fun same => closed same.2.2) ?_
        simp [bracketStep, quoted, opened, closed]
    | inside | escaped => exact kept (by simp) rfl

/-- What stands between two braces that belong together. -/
theorem braceClosed_of_balanced (cut : balanced '{' '}' text = some (interior, rest)) :
    BraceClosed interior := by
  cases text with
  | nil => contradiction
  | cons first more =>
    rw [balanced_cons] at cut
    split_ifs at cut
    intro depth
    have closes := ((balancedTail_eq_some_iff (by decide) (by decide)).mp cut).2
    have deeper := (run_of_bracketStep closes depth).2
    rwa [Nat.zero_add] at deeper

end TypedScript.Text
