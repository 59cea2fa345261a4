/-
**JSON text closes its braces.** Whatever JSON text can be read, its braces outside of literals belong
together in pairs. So a literal in a script hides no brace of a block.
-/

import TypedScript.Proofs.Json.RoundTrip
import TypedScript.Proofs.Text.Braces

namespace TypedScript.Json

open Text

variable {input after : Input} {c : Char} {more text : List Char} {bytes room : Nat}

/-! ### Outcomes -/

/-- What is read, if anything, is of the given kind. -/
def Yields {α : Type} (outcome : Except Fault α) (kind : α → Prop) : Prop :=
  ∀ value, outcome = .ok value → kind value

namespace Yields

variable {α β : Type} {outcome other : Except Fault α} {kind : α → Prop} {value : α}

theorem ok (holds : kind value) : Yields (.ok value) kind := by
  rintro _ ⟨⟩
  exact holds

theorem pure (holds : kind value) : Yields (Pure.pure value) kind :=
  ok holds

theorem error {fault : Fault} : Yields (.error fault : Except Fault α) kind :=
  nofun

/-- What two steps read. -/
theorem bind {next : α → Except Fault β} {kind' : β → Prop} (first : Yields outcome kind)
    (second : ∀ value, kind value → Yields (next value) kind') :
    Yields (outcome >>= next) kind' := by
  cases outcome with
  | error fault => exact nofun
  | ok value => exact second value (first value rfl)

theorem ite {condition : Prop} [Decidable condition] (yes : condition → Yields outcome kind)
    (no : ¬condition → Yields other kind) : Yields (if condition then outcome else other) kind := by
  split
  · exact yes ‹_›
  · exact no ‹_›

theorem mono {kind' : α → Prop} (yields : Yields outcome kind)
    (weaker : ∀ value, kind value → kind' value) : Yields outcome kind' :=
  fun value found => weaker value (yields value found)

end Yields

/-! ### Inputs -/

/-- An input behind a text that closes its braces. -/
def Passes (before after : Input) : Prop :=
  ∃ taken, before.rest = taken ++ after.rest ∧ BraceClosed taken

namespace Passes

variable {first second third : Input}

theorem refl (input : Input) : Passes input input :=
  ⟨[], rfl, .nil⟩

theorem trans (one : Passes first second) (two : Passes second third) : Passes first third := by
  obtain ⟨taken, rest, closed⟩ := one
  obtain ⟨taken', rest', closed'⟩ := two
  exact ⟨taken ++ taken', by rw [rest, rest', List.append_assoc], closed.append closed'⟩

/-- Plain characters are passed. -/
theorem drop {count : Nat} (plain : ∀ c ∈ input.rest.take count, isPlain c = true) :
    Passes input (input.drop count) :=
  ⟨input.rest.take count, (List.take_append_drop count input.rest).symm, .plain plain⟩

theorem drop_one (rest : input.rest = c :: more) (plain : isPlain c = true) :
    Passes input (input.drop 1) := by
  refine drop ?_
  rw [rest]
  simpa using plain

/-- Blanks are passed. -/
theorem skipSpace (input : Input) : Passes input input.skipSpace := by
  refine drop fun c member => ?_
  rw [List.prefix_iff_eq_take.mp (List.takeWhile_prefix _) |>.symm] at member
  exact isPlain_of_class (List.mem_takeWhile_imp member) (by decide)

/-- Digits are passed. -/
theorem digits (input : Input) : Passes input (input.drop (leadingDigits input).length) := by
  refine drop fun c member => ?_
  rw [leadingDigits, List.prefix_iff_eq_take.mp (List.takeWhile_prefix _) |>.symm] at member
  exact isPlain_of_class (List.mem_takeWhile_imp member) (by decide)

end Passes

/-- A word is passed. -/
theorem readWord_passes {letters : List Char} (plain : ∀ c ∈ letters, isPlain c = true)
    (input : Input) : Yields (input.readWord letters) (Passes input) := by
  induction letters generalizing input with
  | nil => exact .ok (.refl input)
  | cons expected more ih =>
    obtain ⟨first, others⟩ := List.forall_mem_cons.mp plain
    rw [Input.readWord]
    split
    · exact .error
    · rename_i c rest found
      refine .ite (fun same => ?_) fun _ => .error
      subst same
      exact (ih others _).mono fun after passes => (Passes.drop_one found first).trans passes

/-! ### Numbers -/

/-- What is read stands behind a text that closes its braces. -/
abbrev ReadBehind {α : Type} (input : Input) (read : α × Input) : Prop :=
  Passes input read.2

theorem ofParts_passes (passes : Passes input after) (negative : Bool) (significand : Nat)
    (exponent : Int) :
    Yields (ofParts negative significand exponent after) (ReadBehind input) := by
  unfold ofParts
  split
  · exact .ok passes
  · exact .error

/-- An exponent is passed, with its sign. -/
theorem readExponent_passes (rest : input.rest = c :: more) (plain : isPlain c = true)
    (negative : Bool) (significand : Nat) (exponent : Int) :
    Yields (readExponent negative significand exponent input) (ReadBehind input) := by
  have marked := Passes.drop_one rest plain
  unfold readExponent
  dsimp only
  split
  · exact .error
  · refine .ite (fun _ => .error) fun _ => ?_
    split
    on_goal 1 => apply ofParts_passes
    on_goal 2 => refine .ite (fun _ => .error) fun _ => .ok ?_
    -- Either way a sign and the digits are passed.
    all_goals
      refine (marked.trans ?_).trans (Passes.digits _)
      split
      · exact .drop_one ‹_› (by decide)
      · exact .drop_one ‹_› (by decide)
      · exact .refl _

/-- An exponent, if there is one, is passed. -/
theorem readPower_passes (negative : Bool) (significand : Nat) (exponent : Int) (input : Input) :
    Yields (readPower negative significand exponent input) (ReadBehind input) := by
  unfold readPower
  split
  · exact readExponent_passes ‹_› (by decide) _ _ _
  · exact readExponent_passes ‹_› (by decide) _ _ _
  · exact ofParts_passes (.refl input) _ _ _

/-- A fraction is passed. -/
theorem readFraction_passes (rest : input.rest = c :: more) (plain : isPlain c = true)
    (negative : Bool) (significand : Nat) (exponent : Int) :
    Yields (readFraction negative significand exponent input) (ReadBehind input) := by
  have point := Passes.drop_one rest plain
  unfold readFraction
  dsimp only
  split
  · exact .error
  · exact .error
  · refine (readPower_passes _ _ _ _).mono fun read passes => ?_
    exact (point.trans (Passes.digits _)).trans passes

/-- **A number is passed.** -/
theorem readNumber_passes (negative : Bool) (input : Input) :
    Yields (readNumber negative input) (ReadBehind input) := by
  unfold readNumber
  split
  · exact .error
  rename_i c more rest
  refine .ite (fun _ => .error) fun digit => ?_
  have whole : Passes input
      (input.drop (if c = '0' then ['0'] else leadingDigits input).length) := by
    split_ifs with zero
    · exact .drop_one rest (by rw [zero]; decide)
    · exact .digits input
  dsimp only
  generalize input.drop (if c = '0' then ['0'] else leadingDigits input).length = after at whole ⊢
  have behind {outcome : Except Fault (Json × Input)} (yields : Yields outcome (ReadBehind after)) :
      Yields outcome (ReadBehind input) :=
    yields.mono fun read passes => whole.trans passes
  split
  · rename_i next others found
    refine .ite (fun _ => .error) fun _ => .ite (fun point => ?_) fun _ => .ite (fun mark => ?_)
      fun _ => .ite (fun _ => ofParts_passes whole _ _ _) fun _ => .ok whole
    · exact behind (readFraction_passes found (by rw [point]; decide) _ _ _)
    · refine behind (readExponent_passes found ?_ _ _ _)
      rw [Bool.or_eq_true, decide_eq_true_eq, decide_eq_true_eq] at mark
      rcases mark with rfl | rfl <;> decide
  · exact .ite (fun _ => ofParts_passes whole _ _ _) fun _ => .ok whole

/-! ### String literals -/

/-- Behind the text, a literal still goes on. -/
def LeadsInside (quote : Quote) (text : List Char) : Prop :=
  ∀ depth, text.foldlM braceStep (quote, depth) = some (.inside, depth)

theorem LeadsInside.nil : LeadsInside .inside [] :=
  fun _ => rfl

/-- Any character leads on as the automaton says. -/
theorem LeadsInside.cons {quote : Quote} (inside : quote ≠ .outside)
    (rest : LeadsInside (quote.step c) text) : LeadsInside quote (c :: text) := by
  intro depth
  rw [List.foldlM_cons, braceStep, bracketStep_inside inside]
  exact rest depth

/-- A digit ends no literal. -/
theorem LeadsInside.hexDigit {value : Nat} (digit : hexDigit? c = some value)
    (rest : LeadsInside .inside text) :
    LeadsInside .inside (c :: text) := by
  have none : hexDigit? '"' = none ∧ hexDigit? '\\' = none := by decide
  have quote : c ≠ '"' := by
    rintro rfl
    exact nomatch none.1.symm.trans digit
  have backslash : c ≠ '\\' := by
    rintro rfl
    exact nomatch none.2.symm.trans digit
  refine .cons nofun ?_
  rw [Quote.step, if_neg quote, if_neg backslash]
  exact rest

/-- Four digits end no literal. -/
theorem hexFour_leads :
    Yields (hexFour text bytes) fun _ => ∃ digits more, text = digits ++ more ∧ digits.length = 4 ∧
      ∀ rest, LeadsInside .inside rest → LeadsInside .inside (digits ++ rest) := by
  unfold hexFour
  split
  · rename_i a b c d more
    split
    · rename_i first second third fourth
      exact .ok ⟨[a, b, c, d], more, rfl, rfl, fun rest inside =>
        .hexDigit first (.hexDigit second (.hexDigit third (.hexDigit fourth inside)))⟩
    · exact .error
  · exact .ite (fun _ => .error) fun _ => .error

/-- What follows the backslash of an escape. -/
def EscapeOf (text : List Char) (length : Nat) : Prop :=
  ∃ letters more, text = letters ++ more ∧ letters.length = length ∧ LeadsInside .escaped letters

/-- Nor does the second half of a pair. -/
theorem lowSurrogate_leads {high : Nat} :
    Yields (lowSurrogate high text bytes) fun _ => ∃ letters more, text = letters ++ more ∧
      letters.length = 6 ∧ LeadsInside .inside letters := by
  unfold lowSurrogate
  split
  · exact .error
  · exact .error
  · refine .bind hexFour_leads fun low found => .ite (fun _ => .error) fun _ => .ok ?_
    obtain ⟨digits, more, rfl, length, leads⟩ := found
    refine ⟨'\\' :: 'u' :: digits, more, rfl, by simp [length], ?_⟩
    have inside := leads [] .nil
    rw [List.append_nil] at inside
    exact .cons nofun (.cons nofun inside)
  · exact .error
  · exact .error

/-- **An escape ends no literal.** -/
theorem escape_leads : Yields (escape text bytes) fun read => EscapeOf text read.2 := by
  unfold escape
  split
  · exact .error
  · refine .bind hexFour_leads fun code found => .ite (fun _ => .error) fun _ => ?_
    obtain ⟨digits, more, rfl, length, leads⟩ := found
    refine .ite (fun _ => .ok ?_) fun _ => .bind lowSurrogate_leads fun low second => .pure ?_
    · have inside := leads [] .nil
      rw [List.append_nil] at inside
      exact ⟨'u' :: digits, more, rfl, by simp [length], .cons nofun inside⟩
    · obtain ⟨letters, others, rest, count, inside⟩ := second
      rw [← length, List.drop_left] at rest
      exact ⟨'u' :: (digits ++ letters), others, by simp [rest], by simp [length, count],
        .cons nofun (leads letters inside)⟩
  · rename_i c more _
    split
    · exact .ok ⟨[c], more, rfl, rfl, .cons nofun .nil⟩
    · exact .error

/-- From inside a literal, its end is read. -/
def EndsLiteral (text : List Char) (after : Input) : Prop :=
  ∃ taken, text = taken ++ after.rest ∧
    ∀ depth, taken.foldlM braceStep (.inside, depth) = some (.outside, depth)

/-- A text may stand in front of the end. -/
theorem EndsLiteral.behind {front : List Char} (leads : LeadsInside .inside front)
    (ends : EndsLiteral text after) :
    EndsLiteral (front ++ text) after := by
  obtain ⟨taken, rfl, closes⟩ := ends
  refine ⟨front ++ taken, by rw [List.append_assoc], fun depth => ?_⟩
  rw [List.foldlM_append, leads depth]
  exact closes depth

/-- **A string is read up to the end of its literal.** -/
theorem readTextFrom_ends (text : List Char) (bytes : Nat) :
    Yields (readTextFrom 0 text bytes) fun read => EndsLiteral text read.2 := by
  -- An escape takes several characters, so the induction is on the length.
  induction size : text.length using Nat.strong_induction_on generalizing text bytes with
  | _ length ih =>
    subst size
    cases text with
    | nil => exact .error
    | cons c rest =>
      rw [readTextFrom]
      refine .ite (fun quote => .ok ?_) fun quote => .ite (fun backslash => ?_) fun backslash =>
        .ite (fun _ => .error) fun _ => ?_
      · subst quote
        exact ⟨['"'], rfl, fun _ => rfl⟩
      · subst backslash
        refine .bind escape_leads ?_
        rintro ⟨denoted, length⟩ ⟨letters, more, rfl, rfl, leads⟩
        dsimp only
        rw [readTextFrom_skip]
        have shorter : more.length < ('\\' :: (letters ++ more)).length := by
          simp only [List.length_cons, List.length_append]
          omega
        refine .bind (ih _ shorter more _ rfl) fun read ends => .pure ?_
        exact ends.behind (.cons (by decide) leads : LeadsInside .inside ('\\' :: letters))
      · refine .bind (ih rest.length (by simp) rest _ rfl) fun read ends => .pure ?_
        have leads : LeadsInside .inside [c] := by
          refine .cons (by decide) ?_
          rw [Quote.step, if_neg quote, if_neg backslash]
          exact .nil
        exact ends.behind leads

/-- A string is passed, whatever braces are in it. -/
theorem readText_passes (rest : input.rest = '"' :: more) :
    Yields (readText (input.drop 1)) (ReadBehind input) := by
  have behind : (input.drop 1).rest = more := by simp [Input.drop, rest]
  unfold readText
  refine .bind (readTextFrom_ends _ _) fun read ends => .pure ?_
  obtain ⟨taken, whole, closes⟩ := ends
  refine ⟨'"' :: taken, ?_, fun depth => ?_⟩
  · rw [rest, ← behind, whole]
    rfl
  · rw [List.foldlM_cons]
    exact closes depth

/-! ### Lists and objects -/

/-- A comma is passed in front of an item. -/
theorem hasItem_passes (first : Bool) (input : Input) :
    Yields (hasItem first input) (ReadBehind input) := by
  have spaces := Passes.skipSpace input
  unfold hasItem
  dsimp only
  split
  · exact .error
  · exact .ok spaces
  · rename_i c more _ rest
    refine .ite (fun _ => .ok spaces) fun _ => .ite (fun comma => ?_) fun _ => .error
    have behind := (spaces.trans (.drop_one rest (by rw [comma]; decide))).trans (.skipSpace _)
    split
    · exact .error
    · exact .error
    · exact .ok behind

/-- A comma is passed in front of a field, which starts with a quote. -/
theorem hasField_passes (first : Bool) (input : Input) :
    Yields (hasField first input) fun read => Passes input read.2 ∧
      (read.1 = true → ∃ more, read.2.rest = '"' :: more) := by
  have spaces := Passes.skipSpace input
  unfold hasField
  dsimp only
  split
  · exact .error
  · exact .ok ⟨spaces, fun more => absurd more Bool.false_ne_true⟩
  · rename_i c more _ rest
    refine .ite (fun _ => .ite (fun quote => .ok ⟨spaces, fun _ => ?_⟩) fun _ => .error) fun _ =>
      .ite (fun comma => ?_) fun _ => .error
    · exact ⟨more, quote ▸ rest⟩
    · have behind := (spaces.trans (.drop_one rest (by rw [comma]; decide))).trans (.skipSpace _)
      split
      · exact .error
      · exact .ok ⟨behind, fun _ => ⟨_, ‹_›⟩⟩
      · exact .error
      · exact .error

/-- A colon is passed. -/
theorem readColon_passes (input : Input) : Yields (readColon input) (Passes input) := by
  have spaces := Passes.skipSpace input
  unfold readColon
  dsimp only
  split
  · exact .error
  · exact .ok (spaces.trans (.drop_one ‹_› (by decide)))
  · exact .error

/-- The end of a list is passed. -/
theorem endList_passes (input : Input) : Yields (endList input) (Passes input) := by
  have spaces := Passes.skipSpace input
  unfold endList
  dsimp only
  split
  · exact .error
  · exact .ok (spaces.trans (.drop_one ‹_› (by decide)))
  · split
    · exact .error
    · exact .error
  · exact .error

/-- The brace at the end of an object is taken. -/
theorem endObject_passes (input : Input) : Yields (endObject input) fun after =>
    ∃ taken, input.rest = taken ++ '}' :: after.rest ∧ BraceClosed taken := by
  obtain ⟨taken, rest, closed⟩ := Passes.skipSpace input
  unfold endObject
  dsimp only
  split
  · exact .error
  · rename_i found
    refine .ok ⟨taken, ?_, closed⟩
    rw [rest, found]
    simp [Input.drop, found]
  · exact .error
  · exact .error

/-- Items are passed if each of them is. -/
theorem readItems_passes {α : Type} {item : Reader α}
    (reads : ∀ input, Yields (item input) (ReadBehind input)) (fuel : Nat) (first : Bool)
    (input : Input) : Yields (readItems item fuel first input) (ReadBehind input) := by
  induction fuel generalizing first input with
  | zero => exact .error
  | succ fuel ih =>
    rw [readItems]
    refine .bind (hasItem_passes first input) fun found before => .ite (fun _ => ?_)
      fun _ => .pure before
    refine .bind (reads _) fun value inside => .bind (ih false _) fun values rest => .pure ?_
    exact (before.trans inside).trans rest

/-- Fields are passed if their values are. -/
theorem readFields_passes {value : Reader Json}
    (reads : ∀ input, Yields (value input) (ReadBehind input)) (fuel : Nat) (first : Bool)
    (input : Input) : Yields (readFields value fuel first input) (ReadBehind input) := by
  induction fuel generalizing first input with
  | zero => exact .error
  | succ fuel ih =>
    rw [readFields]
    refine .bind (hasField_passes first input) fun found before => .ite (fun more => ?_)
      fun _ => .pure before.1
    obtain ⟨_, quote⟩ := before.2 more
    refine .bind (readText_passes quote) fun key named => .bind (readColon_passes _)
      fun behind colon => .bind (reads _) fun field inside => .bind (ih false _)
        fun fields rest => .pure ?_
    exact (((before.1.trans named).trans colon).trans inside).trans rest

theorem readValue_list {room : Nat} {input : Input} {more : List Char}
    (rest : input.rest = '[' :: more)
    (reads : ∀ input, Yields (readValue room input) (ReadBehind input)) :
    Yields (readItems (readValue room) ((input.drop 1).rest.length + 1) true (input.drop 1))
      (ReadBehind input) :=
  (readItems_passes reads _ _ _).mono fun _ passes => (Passes.drop_one rest (by decide)).trans passes

/-- The two braces of an object are a pair. -/
theorem Passes.object {between : Input} {taken : List Char}
    (rest : input.rest = '{' :: more) (fields : Passes (input.drop 1) between)
    (ends : between.rest = taken ++ '}' :: after.rest) (closed : BraceClosed taken) :
    Passes input after := by
  obtain ⟨inside, cut, inner⟩ := fields
  have behind : (input.drop 1).rest = more := by simp [Input.drop, rest]
  refine ⟨'{' :: ((inside ++ taken) ++ ['}']), ?_, (inner.append closed).braces⟩
  rw [rest, ← behind, cut, ends]
  simp

/-- One value, given those inside it. -/
theorem readValue_passes_of_inner (inside : ∀ inner, room = inner + 1 → ∀ input,
    Yields (readValue inner input) (ReadBehind input)) (input : Input) :
    Yields (readValue room input) (ReadBehind input) := by
  have spaces := Passes.skipSpace input
  unfold readValue
  dsimp only
  split
  · exact .error
  rename_i c more rest
  generalize input.skipSpace = start at spaces rest ⊢
  have behind {α : Type} {outcome : Except Fault (α × Input)}
      (yields : Yields outcome (ReadBehind start)) : Yields outcome (ReadBehind input) :=
    yields.mono fun _ passes => spaces.trans passes
  have word {letters : List Char} (value : Json) (first : isPlain c = true)
      (plain : ∀ c ∈ letters, isPlain c = true) :
      Yields (do return (value, ← (start.drop 1).readWord letters)) (ReadBehind input) :=
    behind (.bind (readWord_passes plain _) fun _ passes =>
      .pure ((Passes.drop_one rest first).trans passes))
  refine .ite (fun _ => word _ (by subst c; decide) (by decide)) fun _ =>
    .ite (fun _ => word _ (by subst c; decide) (by decide)) fun _ =>
      .ite (fun _ => word _ (by subst c; decide) (by decide)) fun _ =>
        .ite (fun _ => ?negative) fun _ => .ite (fun _ => behind (readNumber_passes _ _)) fun _ =>
          .ite (fun _ => ?text) fun _ => .ite (fun _ => ?list) fun _ => .ite (fun _ => ?object)
            fun _ => .error
  case negative =>
    refine behind ((readNumber_passes _ _).mono fun read passes => ?_)
    exact (Passes.drop_one rest (by subst c; decide)).trans passes
  case text =>
    subst c
    exact behind (.bind (readText_passes rest) fun read passes => .pure passes)
  case list =>
    subst c
    split
    · exact .error
    · refine behind (.bind (readValue_list rest (inside _ rfl)) fun read passes =>
        .bind (endList_passes _) fun after ends => .pure (passes.trans ends))
  case object =>
    subst c
    split
    · exact .error
    · refine behind (.bind (readFields_passes (inside _ rfl) _ _ _) fun read passes =>
        .bind (endObject_passes _) fun after ends => .pure ?_)
      obtain ⟨taken, cut, closed⟩ := ends
      exact .object rest passes cut closed

/-- What one value takes from the text. -/
theorem readValue_passes (room : Nat) (input : Input) :
    Yields (readValue room input) (ReadBehind input) := by
  induction room generalizing input with
  | zero => exact readValue_passes_of_inner (fun inner same => by omega) input
  | succ inner ih =>
    refine readValue_passes_of_inner (fun room same => ?_) input
    obtain rfl := Nat.succ.inj same
    exact ih

/-- **A text that is JSON closes its braces.** -/
theorem braceClosed_of_parse {value : Json} (parsed : parse text = .ok value) :
    BraceClosed text := by
  have closed : Yields (parse text) fun _ => BraceClosed text := by
    unfold parse
    refine .bind (readValue_passes _ _) fun read passes => ?_
    obtain ⟨taken, whole, front⟩ := passes
    obtain ⟨spaces, rest, back⟩ := Passes.skipSpace read.2
    unfold endText
    dsimp only
    split_ifs with ended
    · refine .pure ?_
      rw [List.isEmpty_iff.mp ended, List.append_nil] at rest
      rw [show text = taken ++ spaces from whole.trans (by rw [rest])]
      exact front.append back
    · exact .error
  exact closed value parsed

end TypedScript.Json
