/-
**Texts in which the code of two statements is exchanged.** The code of one statement stands on the
lines in front of that of another one, or behind them. Everything around is the same.

* `ExprExchanged`, `LinesExchanged`, `AlternativeExchanged`: code that is written as such texts,
  however deep it is indented; one lemma for each form of code that generation makes.
-/

import TypedScript.Proofs.Generation.Translation

namespace TypedScript

open Target (Expr Alternative writeLines writeArguments braced)

/-- **The same text, but for places where the code of the first statement stands in front of that of
the second one**, and the other way round in the other text. The mark says whether there is such a
place. -/
inductive TextExchanged (first second : Stmt) : Bool → String → String → Prop
  | same (text : String) : TextExchanged first second false text text
  | exchange (indent : Nat) (emitted : KindCode first.kind code)
      (emitted' : KindCode second.kind code') :
      TextExchanged first second true (writeLines indent [code] ++ writeLines indent [code'])
        (writeLines indent [code'] ++ writeLines indent [code])
  | append (head : TextExchanged first second found front front')
      (tail : TextExchanged first second found' back back') :
      TextExchanged first second (found || found') (front ++ back) (front' ++ back')

section Texts

variable {first second : Stmt} {found : Bool} {text text' : String}

theorem TextExchanged.behind (exchanged : TextExchanged first second found text text')
    (front : String) : TextExchanged first second found (front ++ text) (front ++ text') :=
  .append (.same front) exchanged

theorem TextExchanged.before (exchanged : TextExchanged first second found text text')
    (back : String) : TextExchanged first second found (text ++ back) (text' ++ back) := by
  have whole := TextExchanged.append exchanged (.same back)
  rwa [Bool.or_false] at whole

theorem TextExchanged.eq_of_not_found (exchanged : TextExchanged first second found text text')
    (notFound : found = false) : text = text' := by
  induction exchanged with
  | same => rfl
  | exchange => contradiction
  | append _ _ head tail =>
    obtain ⟨notFound, notFound'⟩ := Bool.or_eq_false_iff.mp notFound
    rw [head notFound, tail notFound']

end Texts

/-! ### Code -/

section Codes

variable (first second : Stmt)

/-- Expressions that are written as such texts. -/
def ExprExchanged (found : Bool) (code code' : Expr) : Prop :=
  ∀ indent, TextExchanged first second found (code.write indent) (code'.write indent)

/-- Statements that are written as such texts, each without its line. -/
def StmtExchanged (found : Bool) (code code' : Target.Stmt) : Prop :=
  ∀ indent, TextExchanged first second found (code.write indent) (code'.write indent)

/-- Several statements that are written as such texts. -/
def LinesExchanged (found : Bool) (code code' : List Target.Stmt) : Prop :=
  ∀ indent, TextExchanged first second found (writeLines indent code) (writeLines indent code')

def AlternativeExchanged (found : Bool) (code code' : Alternative) : Prop :=
  ∀ indent, TextExchanged first second found (code.write indent) (code'.write indent)

/-- Arguments that are written as such texts. -/
inductive CodesExchanged : Bool → List Expr → List Expr → Prop
  | nil : CodesExchanged false [] []
  | cons (head : ExprExchanged first second found code code')
      (tail : CodesExchanged found' rest rest') :
      CodesExchanged (found || found') (code :: rest) (code' :: rest')

end Codes

section Forms

variable {first second : Stmt} {found found' found'' : Bool} {codes codes' : List Expr}

namespace ExprExchanged

variable {code code' : Expr}

theorem same (code : Expr) : ExprExchanged first second false code code :=
  fun _ => .same _

variable (exchanged : ExprExchanged first second found code code')

include exchanged

theorem unary (op : Operator) :
    ExprExchanged first second found (unaryCode op code) (unaryCode op code') := by
  intro indent
  cases op with
  | not => exact (exchanged indent).behind "!"
  | _ => exact ((exchanged indent).behind "(-").before ")"

theorem group : ExprExchanged first second found (.group code) (.group code') :=
  fun indent => ((exchanged indent).behind "(").before ")"

theorem member (name : String) :
    ExprExchanged first second found (.member code name) (.member code' name) :=
  fun indent => ((exchanged indent).before ".").before name

theorem await : ExprExchanged first second found (.await code) (.await code') :=
  fun indent => ((exchanged indent).behind "(await ").before ")"

theorem truncate (type : Ty) :
    ExprExchanged first second found (type.truncate code) (type.truncate code') := by
  unfold Ty.truncate
  split_ifs
  · exact fun indent => ((exchanged indent).behind "((").before ") | 0)"
  · exact fun indent => ((exchanged indent).behind "(((").before ") | 0) >>> 0)"
  · exact exchanged

variable {other other' : Expr} (exchanged' : ExprExchanged first second found' other other')

include exchanged'

theorem binary (op : Operator) :
    ExprExchanged first second (found || found') (.binary op code other)
      (.binary op code' other') := by
  intro indent
  exact (((((exchanged indent).behind "(").before " ").before op.target).before " ").append
    (exchanged' indent) |>.before ")"

theorem index :
    ExprExchanged first second (found || found') (.index code other) (.index code' other') :=
  fun indent => (((exchanged indent).before "[").append (exchanged' indent)).before "]"

end ExprExchanged

theorem CodesExchanged.write (exchanged : CodesExchanged first second found codes codes')
    (indent : Nat) :
    TextExchanged first second found (writeArguments indent codes)
      (writeArguments indent codes') := by
  induction exchanged with
  | nil => exact .same ""
  | cons head tail ih =>
    cases tail with
    | nil =>
      rw [Bool.or_false]
      exact head indent
    | cons _ _ => exact ((head indent).before ", ").append ih

theorem ExprExchanged.call {code code' : Expr}
    (exchanged : ExprExchanged first second found code code')
    (arguments : CodesExchanged first second found' codes codes') :
    ExprExchanged first second (found || found') (.call code codes) (.call code' codes') :=
  fun indent => (((exchanged indent).before "(").append (arguments.write indent)).before ")"

/-! ### Statements -/

section Statements

variable {body body' : List Target.Stmt} {code code' other other' : Expr} {stmt stmt' : Target.Stmt}

theorem LinesExchanged.braced (exchanged : LinesExchanged first second found body body')
    (indent : Nat) :
    TextExchanged first second found (braced indent (writeLines (indent + 1) body))
      (braced indent (writeLines (indent + 1) body')) :=
  (((exchanged (indent + 1)).behind "\x7b\n").before (Target.padding indent)).before "\x7d"

theorem ExprExchanged.arrow (exchanged : LinesExchanged first second found body body')
    (async : Bool) (params : List String) :
    ExprExchanged first second found (.arrow async params body) (.arrow async params body') :=
  fun indent => (exchanged.braced indent).behind _

theorem StmtExchanged.lines (exchanged : StmtExchanged first second found stmt stmt') :
    LinesExchanged first second found [stmt] [stmt'] :=
  fun indent => (((exchanged indent).behind (Target.padding indent)).before "\n").before ""

theorem writeLines_append (indent : Nat) (front back : List Target.Stmt) :
    writeLines indent (front ++ back) = writeLines indent front ++ writeLines indent back := by
  induction front with
  | nil => exact (String.empty_append).symm
  | cons stmt rest ih => simp only [List.cons_append, writeLines, ih, String.append_assoc]

theorem LinesExchanged.append {rest rest' : List Target.Stmt}
    (exchanged : LinesExchanged first second found body body')
    (exchanged' : LinesExchanged first second found' rest rest') :
    LinesExchanged first second (found || found') (body ++ rest) (body' ++ rest') := by
  intro indent
  rw [writeLines_append, writeLines_append]
  exact (exchanged indent).append (exchanged' indent)

theorem LinesExchanged.same (body : List Target.Stmt) :
    LinesExchanged first second false body body :=
  fun _ => .same _

/-- **The exchange itself.** The code of each statement is written as the same text in both
orders. -/
theorem LinesExchanged.exchange {other other' : Target.Stmt} (emitted : KindCode first.kind stmt)
    (emitted' : KindCode second.kind other) (same : StmtExchanged first second false stmt stmt')
    (same' : StmtExchanged first second false other other') :
    LinesExchanged first second true [stmt, other] [other', stmt'] := by
  intro indent
  have split (code code' : Target.Stmt) : writeLines indent [code, code'] =
      writeLines indent [code] ++ writeLines indent [code'] :=
    writeLines_append indent [code] [code']
  rw [split, split, ← (same.lines indent).eq_of_not_found rfl,
    ← (same'.lines indent).eq_of_not_found rfl]
  exact .exchange indent emitted emitted'

namespace StmtExchanged

theorem function (exchanged : LinesExchanged first second found body body') (async : Bool)
    (name : String) (params : List String) :
    StmtExchanged first second found (.function async name params body)
      (.function async name params body') :=
  fun indent => (exchanged.braced indent).behind _

variable (exchanged : ExprExchanged first second found code code')

include exchanged

theorem declare (constant : Bool) (name : String) :
    StmtExchanged first second found (.declare constant name code) (.declare constant name code') :=
  fun indent => ((exchanged indent).behind _).before ";"

theorem evaluate : StmtExchanged first second found (.evaluate code) (.evaluate code') :=
  fun indent => (exchanged indent).before ";"

theorem returns : StmtExchanged first second found (.returns (some code)) (.returns (some code')) :=
  fun indent => ((exchanged indent).behind "return ").before ";"

theorem branch {alternative alternative' : Alternative}
    (exchanged' : LinesExchanged first second found' body body')
    (exchanged'' : AlternativeExchanged first second found'' alternative alternative') :
    StmtExchanged first second (found || found' || found'') (.branch code body alternative)
      (.branch code' body' alternative') :=
  fun indent => ((((exchanged indent).behind "if (").before ") ").append
    (exchanged'.braced indent)).append (exchanged'' indent)

theorem loop (exchanged' : LinesExchanged first second found' body body') :
    StmtExchanged first second (found || found') (.loop code body) (.loop code' body') :=
  fun indent => (((exchanged indent).behind "while (").before ") ").append
    (exchanged'.braced indent)

variable (exchanged' : ExprExchanged first second found' other other')

include exchanged'

theorem assign (op : Operator) :
    StmtExchanged first second (found || found') (.assign code op other)
      (.assign code' op other') :=
  fun indent => (((((exchanged indent).before " ").before op.target).before " ").append
    (exchanged' indent)).before ";"

theorem assignment (integer : Option Ty) (op : Operator) :
    StmtExchanged first second (found || found') (assignmentCode integer op code other)
      (assignmentCode integer op code' other') := by
  cases integer with
  | none => exact .assign exchanged exchanged' op
  | some type =>
    unfold assignmentCode
    cases op.compoundBase? with
    | none => exact .assign exchanged (exchanged'.truncate type) .assign
    | some base =>
      have twice := StmtExchanged.assign exchanged
        ((exchanged.binary exchanged'.group base).truncate type) .assign
      rwa [← Bool.or_assoc, Bool.or_self] at twice

end StmtExchanged

namespace AlternativeExchanged

theorem block (exchanged : LinesExchanged first second found body body') :
    AlternativeExchanged first second found (.block body) (.block body') :=
  fun indent => (exchanged.braced indent).behind " else "

theorem elseIf {alternative alternative' : Alternative}
    (exchanged : ExprExchanged first second found code code')
    (exchanged' : LinesExchanged first second found' body body')
    (exchanged'' : AlternativeExchanged first second found'' alternative alternative') :
    AlternativeExchanged first second (found || found' || found'') (.elseIf code body alternative)
      (.elseIf code' body' alternative') :=
  fun indent => ((((exchanged indent).behind " else if (").before ") ").append
    (exchanged'.braced indent)).append (exchanged'' indent)

end AlternativeExchanged

end Statements

end Forms

end TypedScript
