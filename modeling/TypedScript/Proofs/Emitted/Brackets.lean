/-
**Brackets of generated programs.** A program is read character by character, with the brackets that
wait to be closed. Text between double quotes is passed over, and a backslash there takes the next
character with it.

* `Balance.read`, `isBalanced`: reading brackets. A bracket that closes another one than the last
  that was opened ends the reading.
-/

import TypedScript.Proofs.Json.Passing
import TypedScript.Target.Writing

namespace TypedScript

/-! ### Reading brackets -/

/-- The kinds of brackets. -/
inductive Bracket where
  | parenthesis
  | square
  | brace
  deriving DecidableEq, Repr

def Bracket.opened? : Char → Option Bracket
  | '(' => some .parenthesis
  | '[' => some .square
  | '{' => some .brace
  | _ => none

def Bracket.closed? : Char → Option Bracket
  | ')' => some .parenthesis
  | ']' => some .square
  | '}' => some .brace
  | _ => none

/-- Where a reading of brackets stands, with the brackets that wait to be closed, the last one
first. -/
inductive Balance where
  | code (pending : List Bracket)
  | quoted (pending : List Bracket)
  /-- Behind a backslash between double quotes. -/
  | escaped (pending : List Bracket)
  deriving DecidableEq, Repr

namespace Balance

/-- Takes one character of code. -/
def stepCode (pending : List Bracket) (c : Char) : Option Balance :=
  if c = '"' then some (.quoted pending)
  else
    match Bracket.opened? c, Bracket.closed? c with
    | some bracket, _ => some (.code (bracket :: pending))
    | none, none => some (.code pending)
    | none, some bracket =>
      match pending with
      | [] => none
      | last :: others => if last = bracket then some (.code others) else none

/-- Takes one character. -/
def step : Balance → Char → Option Balance
  | .code pending, c => stepCode pending c
  | .quoted pending, c =>
    if c = '"' then some (.code pending)
    else if c = '\\' then some (.escaped pending)
    else some (.quoted pending)
  | .escaped pending, _ => some (.quoted pending)

/-- Reads a text. There is no result if a bracket is closed that was not opened last. -/
def read (start : Balance) (text : List Char) : Option Balance :=
  text.foldlM step start

end Balance

/-- All brackets and literals of a text are closed. -/
def isBalanced (text : List Char) : Bool :=
  Balance.read (.code []) text = some (.code [])

/-- A text leads from open brackets to others. -/
def Leads (before : List Bracket) (text : String) (after : List Bracket) : Prop :=
  Balance.read (.code before) text.toList = some (.code after)

/-- A text that closes what it opens, whatever was opened in front of it. -/
def Closed (text : String) : Prop :=
  ∀ pending, Leads pending text pending

theorem Closed.isBalanced {text : String} (closed : Closed text) : isBalanced text.toList = true :=
  decide_eq_true (closed [])

/-! ### Closed texts -/

theorem Leads.append {first middle last : List Bracket} {front back : String}
    (before : Leads first front middle) (after : Leads middle back last) :
    Leads first (front ++ back) last := by
  unfold Leads Balance.read at *
  rw [String.toList_append, List.foldlM_append, before]
  exact after

/-- The characters that a reading of brackets looks for in code. -/
def bracketMarks : List Char :=
  ['"', '(', ')', '[', ']', '{', '}']

theorem Balance.stepCode_unmarked {c : Char} (unmarked : c ∉ bracketMarks)
    (pending : List Bracket) : stepCode pending c = some (.code pending) := by
  have noQuote : c ≠ '"' := by
    rintro rfl
    exact unmarked (by decide)
  have noOpening : Bracket.opened? c = none := by
    unfold Bracket.opened?
    split
    · exact absurd (by decide) unmarked
    · exact absurd (by decide) unmarked
    · exact absurd (by decide) unmarked
    · rfl
  have noClosing : Bracket.closed? c = none := by
    unfold Bracket.closed?
    split
    · exact absurd (by decide) unmarked
    · exact absurd (by decide) unmarked
    · exact absurd (by decide) unmarked
    · rfl
  rw [stepCode, if_neg noQuote, noOpening, noClosing]

namespace Closed

variable {text front back : String}

theorem empty : Closed "" :=
  fun _ => rfl

theorem append (first : Closed front) (second : Closed back) : Closed (front ++ back) :=
  fun pending => (first pending).append (second pending)

theorem of_unmarked (unmarked : ∀ c ∈ text.toList, c ∉ bracketMarks) : Closed text := by
  intro pending
  unfold Leads Balance.read
  generalize text.toList = chars at unmarked
  induction chars with
  | nil => rfl
  | cons c rest ih =>
    obtain ⟨first, others⟩ := List.forall_mem_cons.mp unmarked
    rw [List.foldlM_cons, Balance.step, Balance.stepCode_unmarked first]
    exact ih others

theorem join {texts : List String} (closed : ∀ text ∈ texts, Closed text) :
    Closed (String.join texts) := by
  induction texts with
  | nil => exact empty
  | cons text rest ih =>
    obtain ⟨first, others⟩ := List.forall_mem_cons.mp closed
    rw [String.join_cons]
    exact first.append (ih others)

end Closed

/-! ### Literals -/

theorem LiteralBody.read {body : List Char} (isBody : LiteralBody body) (pending : List Bracket) :
    Balance.read (.quoted pending) body = some (.quoted pending) := by
  unfold Balance.read
  induction isBody with
  | nil => rfl
  | plain noQuote noEscape _ ih =>
    rw [List.foldlM_cons, Balance.step, if_neg noQuote, if_neg noEscape]
    exact ih
  | escaped c _ ih => exact ih

open Text in
/-- The characters of numbers. -/
theorem Number.Numeral.unmarked {text : List Char} (numeral : Numeral text) :
    ∀ c ∈ text, c ∉ '_' :: bracketMarks := by
  have digit {digits : List Char} (isDigits : Digits digits) :
      ∀ c ∈ digits, c ∉ '_' :: bracketMarks := by
    intro c member marked
    have each : ∀ c ∈ '_' :: bracketMarks, isAsciiDigit c = false := by decide
    have digit := isDigits.digits c member
    rw [each c marked] at digit
    contradiction
  obtain ⟨whole, fraction, exponent, isWhole, isFraction, isExponent, rfl⟩ := numeral.parts
  rw [List.forall_mem_append, List.forall_mem_append]
  refine ⟨digit isWhole.toDigits, ?_, ?_⟩
  · cases isFraction with
    | none => exact nofun
    | some isDigits => exact List.forall_mem_cons.mpr ⟨by decide, digit isDigits⟩
  · cases isExponent with
    | none => exact nofun
    | some isSign isDigits =>
      refine List.forall_mem_cons.mpr ⟨by decide, List.forall_mem_cons.mpr ⟨?_, digit isDigits⟩⟩
      rcases isSign with rfl | rfl <;> decide

theorem Number.unmarked_signed (negative : Bool) {magnitude : List Char}
    (unmarked : ∀ c ∈ magnitude, c ∉ '_' :: bracketMarks) :
    ∀ c ∈ signed negative magnitude, c ∉ '_' :: bracketMarks := by
  cases negative with
  | false => exact unmarked
  | true => exact List.forall_mem_cons.mpr ⟨by decide, unmarked⟩

theorem Number.Style.unmarked (style : Style) (value : Binary64) :
    ∀ c ∈ style.write value, c ∉ '_' :: bracketMarks := by
  cases value with
  | finite negative mantissa exponent =>
    exact unmarked_signed negative (style.magnitude_numeral mantissa exponent).unmarked
  | infinite negative => exact unmarked_signed negative (by decide)
  | undefined => exact unmarked_signed false (by decide)

namespace Json

/-- **A text literal is closed**, whatever characters it holds. -/
theorem closed_writeText (value : String) : Closed (writeText value) := by
  intro pending
  have body := (literalBody_escaped value.toList).read pending
  unfold Balance.read at body
  unfold Leads Balance.read
  rw [toList_writeText, List.foldlM_cons, Balance.step]
  show (List.foldlM Balance.step (.quoted pending) _) = _
  rw [List.foldlM_append, body]
  rfl

theorem closed_number {text : List Char} (unmarked : ∀ c ∈ text, c ∉ '_' :: bracketMarks) :
    Closed (String.ofList text) := by
  refine .of_unmarked fun c member marked => ?_
  rw [String.toList_ofList] at member
  exact unmarked c member (List.mem_cons_of_mem _ marked)

theorem closed_writeInt (value : Int) : Closed (writeInt value) :=
  closed_number (Number.unmarked_signed _ (Number.Numeral.unmarked
    ⟨_, [], [], Number.whole_toDigits value.natAbs, .none, .none, by simp⟩))

mutual

/-- **A list or object is closed**, whatever its texts and keys hold. -/
theorem closed_write : (value : Json) → Closed value.write
  | .null | .bool true | .bool false => fun _ => rfl
  | .int value => closed_writeInt value
  | .float value => closed_number (numberStyle.unmarked value)
  | .text value => closed_writeText value
  | .array items => by
    rw [write]
    exact fun pending => .append (.append rfl (closed_writeItems items _)) rfl
  | .object fields => by
    rw [write]
    exact fun pending => .append (.append rfl (closed_writeFields fields _)) rfl

theorem closed_writeItems : (items : List Json) → Closed (writeItems items)
  | [] => .empty
  | [item] => closed_write item
  | item :: next :: rest => by
    rw [writeItems]
    · exact .append (.append (closed_write item) fun _ => rfl) (closed_writeItems (next :: rest))
    · simp

theorem closed_writeFields : (fields : List (String × Json)) → Closed (writeFields fields)
  | [] => .empty
  | [(key, value)] => by
    rw [writeFields]
    exact .append (.append (closed_writeText key) fun _ => rfl) (closed_write value)
  | (key, value) :: next :: rest => by
    rw [writeFields]
    · exact .append (.append (.append (.append (closed_writeText key) fun _ => rfl)
        (closed_write value)) fun _ => rfl) (closed_writeFields (next :: rest))
    · simp

end

end Json

end TypedScript
