/-
**Reading part by part.** A part of a text leads the reader from one state to another, whatever
follows. An operand that has been read may stand behind operators which wait for it: the reader is
then as good as behind the whole operand, but for accesses and calls.

* `OperandText`, `ChainText`: texts of operands. Accesses and calls may go on behind a chain.
* `OperandText.group`, `OperandText.binary`, …: how operands are put together.
-/

import Mathlib.Data.List.Forall2
import TypedScript.Proofs.Emitted.Scanning

namespace TypedScript.Target

open Text

variable {name : String} {texts : List (List Char)} {trees : List Tree}
  {fields : List (List Char × Tree)}

/-- What a part of a text does to the reader. -/
def Takes (follows : List Char → Prop) (text : List Char) (state next : State) : Prop :=
  ∀ rest, follows rest → state.read (text ++ rest) = next.read rest

/-- No condition on what follows. -/
abbrev Anything (_ : List Char) : Prop := True

namespace Takes

variable {follows follows' : List Char → Prop} {text text' : List Char}
variable {state middle next : State}

theorem append (first : Takes follows text state middle) (second : Takes follows' text' middle next)
    (goesOn : ∀ rest, follows' rest → follows (text' ++ rest)) :
    Takes follows' (text ++ text') state next := by
  intro rest behind
  rw [List.append_assoc, first _ (goesOn rest behind), second rest behind]

theorem behind (first : Takes Anything text state middle)
    (second : Takes follows text' middle next) : Takes follows (text ++ text') state next :=
  first.append second fun _ _ => trivial

theorem weaken (takes : Takes follows text state next)
    (implied : ∀ rest, follows' rest → follows rest) : Takes follows' text state next :=
  fun rest behind => takes rest (implied rest behind)

theorem of_spelled {tokens : List Piece} (spelled : Spelled follows text tokens)
    (run : state.run tokens = some next) : Takes follows text state next := by
  intro rest behind
  unfold State.read
  rw [spelled rest behind]
  cases pieces 0 rest with
  | none => rfl
  | some others =>
    simp only [Option.map_some, Option.bind_eq_bind, Option.bind_some]
    unfold State.run at run ⊢
    rw [List.foldlM_append, run]
    rfl

theorem of_piece {piece : Piece} (spelled : Spelled follows text [piece])
    (step : state.step piece = some next) : Takes follows text state next := by
  refine of_spelled spelled ?_
  unfold State.run
  rw [List.foldlM_cons, step]
  rfl

theorem mark {mark : String} (solo : mark ∈ soloMarks)
    (step : state.step (.ofMark mark) = some next) : Takes Anything mark.toList state next :=
  of_piece (spelled_mark solo) step

theorem blank (state : State) : Takes Anything " ".toList state state := by
  intro rest _
  show State.read state (' ' :: rest) = _
  unfold State.read
  rw [pieces_blank]

end Takes

/-- A state that is as good as behind an operand. -/
inductive Settles (frames : List Frame) (tree : Tree) : State → Prop
  | intro {inner : List Frame} {operand : Tree}
      (same : ∀ level, reduce level inner operand = reduce level frames tree) :
      Settles frames tree (.complete inner operand)

namespace Settles

variable {frames : List Frame} {tree : Tree} {state : State}

theorem refl (frames : List Frame) (tree : Tree) : Settles frames tree (.complete frames tree) :=
  .intro fun _ => rfl

/-- The signs that go on with an operand, and so tell the states apart. -/
theorem step (settles : Settles frames tree state) {mark : String}
    (ends : mark ∉ [".", "[", "("]) :
    state.step (.ofMark mark) = State.followed mark frames tree := by
  obtain ⟨same⟩ := settles
  simp only [List.mem_cons, List.not_mem_nil, or_false, not_or] at ends
  obtain ⟨noPoint, noIndex, noCall⟩ := ends
  show State.followed mark _ _ = _
  simp only [State.followed, if_neg noPoint, if_neg noIndex, if_neg noCall, same]

theorem finish (settles : Settles [] tree state) : state.finish = some tree := by
  obtain ⟨same⟩ := settles
  simp only [State.finish, same]
  rfl

end Settles

/-- A text that is read as an operand. -/
def OperandText (text : List Char) (tree : Tree) : Prop :=
  ∀ frames, ∃ state, Settles frames tree state ∧ Takes EndsOperand text (.wanted frames) state

/-- A text that is read as an operand behind which accesses and calls may stand. -/
def ChainText (text : List Char) (tree : Tree) : Prop :=
  ∀ frames, Takes EndsName text (.wanted frames) (.complete frames tree)

theorem ChainText.operand {text : List Char} {tree : Tree} (chain : ChainText text tree) :
    OperandText text tree :=
  fun frames => ⟨_, .refl frames tree, (chain frames).weaken fun _ ends => ends.endsName⟩

theorem OperandText.read {text : List Char} {tree : Tree} (operand : OperandText text tree) :
    readExpression text = some tree := by
  obtain ⟨state, settles, takes⟩ := operand []
  have read := takes [] (by intro c head; contradiction)
  rw [List.append_nil] at read
  exact read.trans settles.finish

/-! ### Parts that end an operand -/

/-- The characters that end operands are those of signs that do not go on with them. -/
theorem endsOperand_mark {mark : String} (closing : mark ∈ [")", "]", ",", "\x7d"])
    (rest : List Char) : EndsOperand (mark.toList ++ rest) := by
  simp only [List.mem_cons, List.not_mem_nil, or_false] at closing
  rcases closing with rfl | rfl | rfl | rfl <;> exact endsOperand_cons (by decide) rest

theorem OperandText.closed {text : List Char} {tree : Tree} (operand : OperandText text tree)
    {mark : String} (closing : mark ∈ [")", "]", ",", "\x7d"]) {frames : List Frame} {next : State}
    (followed : State.followed mark frames tree = some next) :
    Takes Anything (text ++ mark.toList) (.wanted frames) next := by
  obtain ⟨state, settles, takes⟩ := operand frames
  have each : ∀ mark ∈ [")", "]", ",", "\x7d"], mark ∈ soloMarks ∧ mark ∉ [".", "[", "("] := by
    decide
  obtain ⟨solo, ends⟩ := each mark closing
  refine takes.append (.mark solo ?_) fun rest _ => endsOperand_mark closing rest
  rw [settles.step ends, followed]

/-! ### Operators and parentheses -/

section Operators

variable {text left right : List Char} {tree leftTree rightTree : Tree}

theorem OperandText.group (operand : OperandText text tree) :
    ChainText ("(".toList ++ (text ++ ")".toList)) tree := by
  intro frames
  have opens : State.step (.wanted frames) (.ofMark "(") = some (.wanted (.group :: frames)) := rfl
  refine (Takes.mark (by decide) opens).behind ?_
  exact (operand.closed (by decide) rfl).weaken fun _ _ => trivial

theorem OperandText.not (operand : OperandText text tree) (starts : EndsNot text) :
    OperandText ("!".toList ++ text) (.unary "!" tree) := by
  intro frames
  obtain ⟨state, ⟨same⟩, takes⟩ := operand (.unary "!" :: frames)
  have each : ∀ c ∈ delimiters, c ≠ '=' := by decide
  refine ⟨_, .intro same, (Takes.of_piece spelled_not rfl).append takes fun rest ends => ?_⟩
  exact forall_head_append starts fun c head => each c (ends c head)

theorem OperandText.minus (operand : OperandText text tree) (starts : EndsMinus text) :
    OperandText ("-".toList ++ text) (.unary "-" tree) := by
  intro frames
  obtain ⟨state, ⟨same⟩, takes⟩ := operand (.unary "-" :: frames)
  have each : ∀ c ∈ delimiters, c ≠ '-' ∧ c ≠ '=' := by decide
  refine ⟨_, .intro same, (Takes.of_piece spelled_minus rfl).append takes fun rest ends => ?_⟩
  exact forall_head_append starts fun c head => each c (ends c head)

theorem OperandText.await (operand : OperandText text tree) :
    OperandText ("await".toList ++ (" ".toList ++ text)) (.unary "await" tree) := by
  intro frames
  obtain ⟨state, ⟨same⟩, takes⟩ := operand (.unary "await" :: frames)
  have word : Takes EndsName "await".toList (.wanted frames) (.wanted (.unary "await" :: frames)) :=
    .of_piece (spelled_word (by decide)) rfl
  refine ⟨_, .intro same, word.append ((Takes.blank _).behind takes) fun rest _ => ?_⟩
  exact (endsOperand_cons (by decide) _).endsName

theorem OperandText.binary (front : OperandText left leftTree) (back : OperandText right rightTree)
    {op : Operator} (joins : op.joinsOperands = true) :
    ChainText ("(".toList ++ (left ++ (" ".toList ++ op.target.toList ++ " ".toList ++
      (right ++ ")".toList)))) (.binary op.target leftTree rightTree) := by
  intro frames
  obtain ⟨state, settles, takes⟩ := front (.group :: frames)
  have opens : State.step (.wanted frames) (.ofMark "(") = some (.wanted (.group :: frames)) := rfl
  have operator : state.step (.ofMark op.target) =
      some (.wanted (.left leftTree op.target :: .group :: frames)) := by
    have ends : op.target ∉ [".", "[", "("] := by
      cases op <;> first | contradiction | decide
    rw [settles.step ends]
    cases op <;> first | contradiction | rfl
  have closes : State.followed ")" (.left leftTree op.target :: .group :: frames) rightTree =
      some (.complete frames (.binary op.target leftTree rightTree)) := by
    cases op <;> first | contradiction | rfl
  refine (Takes.mark (by decide) opens).behind (takes.append ((Takes.of_piece
    (spelled_operator joins) operator).behind ((back.closed (by decide) closes).weaken
      fun _ _ => trivial)) fun rest _ => endsOperand_cons (by decide) _)

end Operators

/-! ### Accesses -/

section Accesses

variable {text inner : List Char} {tree innerTree : Tree}

theorem ChainText.word (word : isWord name = true) (isOperand : isOperandWord name = true)
    (noAwait : name ≠ "await") :
    ChainText name.toList (.word name) := by
  intro frames
  refine .of_piece (spelled_word word) ?_
  show (if name = "await" then _ else if isOperandWord name then _ else _) = _
  rw [if_neg noAwait, if_pos isOperand]

theorem ChainText.member (chain : ChainText text tree) (word : isWord name = true) :
    ChainText (text ++ (".".toList ++ name.toList)) (.member tree name) := by
  intro frames
  refine (chain frames).append (.of_spelled (spelled_member word) rfl) fun rest _ => ?_
  exact forall_head_cons (by decide) _

theorem ChainText.index (chain : ChainText text tree) (operand : OperandText inner innerTree) :
    ChainText (text ++ ("[".toList ++ (inner ++ "]".toList))) (.index tree innerTree) := by
  intro frames
  have opens : State.step (.complete frames tree) (.ofMark "[") =
      some (.wanted (.index tree :: frames)) := rfl
  refine (chain frames).append ((Takes.mark (by decide) opens).behind
    ((operand.closed (by decide) rfl).weaken fun _ _ => trivial)) fun rest _ => ?_
  exact forall_head_cons (by decide) _

end Accesses

/-! ### Lists -/

/-- A bracket around items: the frame with the items so far, what the items make, and the sign that
ends it. -/
structure ListBracket (make : List Tree → Frame) (result : List Tree → Tree) (closer : String) :
    Prop where
  closing : closer ∈ [")", "]", ",", "\x7d"]
  closes : ∀ frames items tree, State.followed closer (make items :: frames) tree =
    some (.complete frames (result (items ++ [tree])))
  goesOn : ∀ frames items tree, State.followed "," (make items :: frames) tree =
    some (.wanted (make (items ++ [tree]) :: frames))
  empty : ∀ frames, State.step (.wanted (make [] :: frames)) (.ofMark closer) =
    some (.complete frames (result []))

theorem callBracket (callee : Tree) : ListBracket (.call callee) (.call callee) ")" :=
  ⟨by decide, fun _ _ _ => rfl, fun _ _ _ => rfl, fun _ => rfl⟩

theorem arrayBracket : ListBracket .array .array "]" :=
  ⟨by decide, fun _ _ _ => rfl, fun _ _ _ => rfl, fun _ => rfl⟩

theorem ListBracket.items {make : List Tree → Frame} {result : List Tree → Tree} {closer : String}
    (bracket : ListBracket make result closer) {blank : List Char}
    (skips : ∀ state, Takes Anything blank state state)
    (operands : List.Forall₂ OperandText texts trees) (before : List Tree) (frames : List Frame)
    (first : texts ≠ [] ∨ before = []) :
    Takes Anything ((',' :: blank).intercalate texts ++ closer.toList)
      (.wanted (make before :: frames)) (.complete frames (result (before ++ trees))) := by
  induction operands generalizing before with
  | nil =>
    obtain rfl : before = [] := first.resolve_left (by simp)
    have each : ∀ mark ∈ [")", "]", ",", "\x7d"], mark ∈ soloMarks := by decide
    exact .mark (each _ bracket.closing) (bracket.empty frames)
  | @cons text tree rest trees operand others ih =>
    cases others with
    | nil =>
      rw [List.intercalate_singleton]
      exact operand.closed bracket.closing (bracket.closes frames before tree)
    | cons other others =>
      have item := operand.closed (by decide) (bracket.goesOn frames before tree)
      have rest := ih (before ++ [tree]) (.inl (by simp))
      rw [List.append_assoc, List.singleton_append] at rest
      have whole := item.behind ((skips _).behind rest)
      rw [List.append_assoc] at whole
      rw [List.intercalate_cons_cons, List.append_assoc, List.append_assoc]
      exact whole

theorem ChainText.call {text : List Char} {tree : Tree} (chain : ChainText text tree)
    (operands : List.Forall₂ OperandText texts trees) :
    ChainText (text ++ ("(".toList ++ ([',', ' '].intercalate texts ++ ")".toList)))
      (.call tree trees) := by
  intro frames
  have opens : State.step (.complete frames tree) (.ofMark "(") =
      some (.wanted (.call tree [] :: frames)) := rfl
  refine (chain frames).append ((Takes.mark (by decide) opens).behind
    (((callBracket tree).items Takes.blank operands [] frames (.inr rfl)).weaken
      fun _ _ => trivial)) fun rest _ => ?_
  exact forall_head_cons (by decide) _

theorem OperandText.array (operands : List.Forall₂ OperandText texts trees) :
    OperandText ("[".toList ++ ([','].intercalate texts ++ "]".toList))
      (.array trees) := by
  intro frames
  have opens : State.step (.wanted frames) (.ofMark "[") =
      some (.wanted (.array [] :: frames)) := rfl
  have empty (state : State) : Takes Anything [] state state := fun _ _ => rfl
  exact ⟨_, .refl _ _, ((Takes.mark (by decide) opens).behind
    (arrayBracket.items empty operands [] frames (.inr rfl))).weaken fun _ _ => trivial⟩

/-! ### Objects -/

/-- The text of a field. -/
inductive FieldText : List Char → List Char × Tree → Prop
  | intro (key : String) {text : List Char} {tree : Tree} (operand : OperandText text tree) :
      FieldText ((Json.writeText key).toList ++ (":".toList ++ text))
        ((Json.writeText key).toList, tree)

theorem FieldText.closed {text : List Char} {field : List Char × Tree}
    (isField : FieldText text field) {mark : String} (closing : mark ∈ [")", "]", ",", "\x7d"])
    {frames : List Frame} {before : List (List Char × Tree)} {next : State}
    (followed : State.followed mark (.object before field.1 :: frames) field.2 = some next) :
    Takes Anything (text ++ mark.toList) (.key frames before) next := by
  obtain ⟨key, operand⟩ := isField
  dsimp only at followed
  have label : Takes Anything (Json.writeText key).toList (.key frames before)
      (.colon frames before (Json.writeText key).toList) := .of_piece (spelled_text key) rfl
  have colon : Takes Anything ":".toList (.colon frames before (Json.writeText key).toList)
      (.wanted (.object before (Json.writeText key).toList :: frames)) := .mark (by decide) rfl
  rw [List.append_assoc, List.append_assoc]
  exact label.behind (colon.behind (operand.closed closing followed))

theorem fields_closed (areFields : List.Forall₂ FieldText texts fields)
    (before : List (List Char × Tree)) (frames : List Frame) (first : texts ≠ [] ∨ before = []) :
    Takes Anything ([','].intercalate texts ++ "\x7d".toList) (.key frames before)
      (.complete frames (.object (before ++ fields))) := by
  induction areFields generalizing before with
  | nil =>
    obtain rfl : before = [] := first.resolve_left (by simp)
    have closes : State.step (.key frames []) (.ofMark "\x7d") =
        some (.complete frames (.object [])) := rfl
    exact Takes.mark (by decide) closes
  | @cons text field rest fields isField others ih =>
    cases others with
    | nil =>
      have closes : State.followed "\x7d" (.object before field.1 :: frames) field.2 =
          some (.complete frames (.object (before ++ [field]))) := rfl
      rw [List.intercalate_singleton]
      exact isField.closed (by decide) closes
    | cons other others =>
      have goesOn : State.followed "," (.object before field.1 :: frames) field.2 =
          some (.key frames (before ++ [field])) := rfl
      have item := isField.closed (by decide) goesOn
      have rest := ih (before ++ [field]) (.inl (by simp))
      rw [List.append_assoc, List.singleton_append] at rest
      have whole := item.behind rest
      rw [List.append_assoc] at whole
      rw [List.intercalate_cons_cons, List.append_assoc, List.append_assoc]
      exact whole

theorem OperandText.object (areFields : List.Forall₂ FieldText texts fields) :
    OperandText ("\x7b".toList ++ ([','].intercalate texts ++ "\x7d".toList))
      (.object fields) := by
  intro frames
  have opens : State.step (.wanted frames) (.ofMark "\x7b") = some (.key frames []) := rfl
  exact ⟨_, .refl _ _, ((Takes.mark (by decide) opens).behind
    (fields_closed areFields [] frames (.inr rfl))).weaken fun _ _ => trivial⟩

/-! ### Literals -/

open Number in
theorem OperandText.numeral {text : List Char} (numeral : Numeral text) :
    OperandText text (.literal text) :=
  fun frames => ⟨_, .refl frames _, .of_piece (spelled_numeral numeral) rfl⟩

theorem OperandText.text (value : String) :
    OperandText (Json.writeText value).toList (.literal (Json.writeText value).toList) :=
  fun frames => ⟨_, .refl frames _,
    (Takes.of_piece (spelled_text value) rfl).weaken fun _ _ => trivial⟩

end TypedScript.Target
