/-
**How programs are written.** The text of a program is woven from the names and literals of its
script, from calls of helpers, and from fixed marks between them. A mark opens and closes brackets,
and where a word is put behind another text, a mark keeps the two apart.
-/

import TypedScript.Proofs.Emitted.Brackets
import TypedScript.Proofs.Generation.Emission

namespace TypedScript

open Target (padding asyncMark braced writeArguments writeLines)

def Part.written? : Part → Option String
  | .expression _ => none
  | .base name | .property name | .declared name => some name
  | .text value => some (Json.writeText value)
  | .literal value => some value.write

/-! ### Marks -/

/-- A character that is no part of the name of a helper. -/
def isApart (c : Char) : Bool :=
  !(c.isAlpha || c == '_')

def markedBy? (apart : Bool) (opened : List Bracket) (mark : String) (apart' : Bool) :
    Option (List Bracket) :=
  if (apart || mark.toList.head?.all isApart) && (!apart' || mark.toList.getLast?.any isApart) &&
      !mark.toList.contains '_' then
    match Balance.read (.code opened) mark.toList with
    | some (.code opened') => some opened'
    | _ => none
  else none

/-- What is to be shown of all woven texts, one rule for each way to extend a text. It may depend on
the brackets that are open at the end of a text and on the helpers that are called. -/
structure Weave (woven : List Helper → Bool → List Bracket → String → Prop) : Prop where
  same {used used' : List Helper} {apart : Bool} {opened : List Bracket} {text : String}
      (whole : woven used apart opened text)
      (uses : ∀ helper, helper ∈ used' ↔ helper ∈ used) : woven used' apart opened text
  start : woven [] true [] ""
  plain {text : String} (unmarked : ∀ c ∈ text.toList, c ∉ '_' :: bracketMarks) :
      woven [] false [] text
  call (helper : Helper) : woven [helper] true [.parenthesis] (helper.name ++ "(")
  mark {used : List Helper} {apart apart' : Bool} {opened opened' : List Bracket}
      {text mark : String} (front : woven used apart opened text)
      (fits : markedBy? apart opened mark apart' = some opened') :
      woven used apart' opened' (text ++ mark)
  spaces {used : List Helper} {apart : Bool} {opened : List Bracket} {text : String}
      (front : woven used apart opened text) (indent : Nat) :
      woven used apart opened (text ++ padding indent)
  inner {used more : List Helper} {apart : Bool} {opened : List Bracket} {text inside : String}
      (front : woven used true opened text) (whole : woven more apart [] inside) :
      woven (more ++ used) apart opened (text ++ inside)

namespace Weave

variable {woven : List Helper → Bool → List Bracket → String → Prop} (weave : Weave woven)
  {used more : List Helper} {apart : Bool} {opened : List Bracket} {text inside mark : String}
  {code target value : Target.Expr} {indent : Nat}

include weave

theorem ahead (fits : markedBy? true [] mark true = some opened)
    (whole : woven used apart [] text) : woven used apart opened (mark ++ text) := by
  have all := weave.inner (weave.mark weave.start fits) whole
  rw [String.empty_append, List.append_nil] at all
  exact all

theorem first (fits : markedBy? true [] mark apart = some opened) : woven [] apart opened mark := by
  have all := weave.mark weave.start fits
  rwa [String.empty_append] at all

theorem empty : woven [] false [] "" :=
  weave.plain (by decide)

theorem asyncMark (async : Bool) (fits : markedBy? true [] mark true = some opened) :
    woven [] true opened (asyncMark async ++ mark) := by
  have all (start : woven [] true [] (Target.asyncMark async)) := weave.mark start fits
  refine all ?_
  cases async with
  | false => exact weave.start
  | true => exact weave.first rfl

theorem braced (lines : woven used false [] text) (indent : Nat) :
    woven used apart [] (braced indent text) :=
  weave.mark (weave.spaces (weave.ahead rfl lines) indent) (by cases apart <;> rfl)

theorem intercalate {texts : List String} (each : ∀ text ∈ texts, woven [] false [] text) :
    woven [] false [] (String.intercalate ", " texts) := by
  induction texts with
  | nil => exact weave.empty
  | cons text rest ih =>
    obtain ⟨first, others⟩ := List.forall_mem_cons.mp each
    cases rest with
    | nil =>
      rw [String.intercalate_singleton]
      exact first
    | cons next rest =>
      rw [String.intercalate_cons_cons]
      exact weave.inner (weave.mark first rfl) (ih others)

theorem operator (op : Operator) : woven [] false [] op.target :=
  weave.plain (by cases op <;> decide)

theorem unary (op : Operator) (operand : woven used false [] (code.write indent)) :
    woven used false [] ((unaryCode op code).write indent) := by
  unfold unaryCode
  split
  · exact weave.ahead rfl operand
  · exact weave.mark (weave.ahead rfl operand) rfl

theorem binary (op : Operator) (left : woven used false [] (target.write indent))
    (right : woven more false [] (value.write indent)) :
    woven (more ++ used) false [] ((Target.Expr.binary op target value).write indent) :=
  weave.mark (weave.inner (weave.mark (weave.inner (weave.mark (weave.ahead rfl left) rfl)
    (weave.operator op)) rfl) right) rfl

theorem truncate (type : Ty) (inner : woven used false [] (code.write indent)) :
    woven used false [] ((type.truncate code).write indent) := by
  unfold Ty.truncate
  split_ifs
  · exact weave.mark (weave.ahead rfl inner) rfl
  · exact weave.mark (weave.ahead rfl inner) rfl
  · exact inner

theorem assign (op : Operator) (left : woven used false [] (target.write indent))
    (right : woven more false [] (value.write indent)) :
    woven (more ++ used) false [] ((Target.Stmt.assign target op value).write indent) :=
  weave.mark (weave.inner (weave.mark (weave.inner (weave.mark left rfl) (weave.operator op)) rfl)
    right) rfl

theorem assignment (integer : Option Ty) (op : Operator)
    (left : woven used false [] (target.write indent))
    (right : woven more false [] (value.write indent)) :
    woven (more ++ used) false [] ((assignmentCode integer op target value).write indent) := by
  unfold assignmentCode
  split
  · have group : woven more false [] ((Target.Expr.group value).write indent) :=
      weave.mark (weave.ahead rfl right) rfl
    exact weave.same (weave.assign .assign left (weave.truncate _ (weave.binary _ left group)))
      (by simp)
  · exact weave.assign .assign left (weave.truncate _ right)
  · exact weave.assign op left right

theorem arguments {codes : List Target.Expr} (first : woven used false [] (code.write indent))
    (others : woven more false [] (writeArguments indent codes)) (none : codes = [] → more = []) :
    woven (more ++ used) false [] (writeArguments indent (code :: codes)) := by
  cases codes with
  | nil =>
    rw [none rfl]
    exact first
  | cons next rest =>
    rw [writeArguments]
    · exact weave.inner (weave.mark first rfl) others
    · simp

theorem condition (fits : markedBy? true [] mark true = some [.parenthesis])
    (test : woven used false [] (code.write indent)) (lines : woven more false [] text) :
    woven (more ++ used) apart []
      (mark ++ code.write indent ++ ") " ++ Target.braced indent text) :=
  weave.inner (weave.mark (weave.ahead fits test) rfl) (weave.braced lines indent)

theorem line (first : woven used false [] text) (others : woven more false [] inside)
    (indent : Nat) :
    woven (more ++ used) false [] (padding indent ++ text ++ "\n" ++ inside) := by
  have all := weave.inner (weave.spaces weave.start indent) first
  rw [String.empty_append, List.append_nil] at all
  exact weave.inner (weave.mark all rfl) others

end Weave

/-! ### Scripts -/

/-- The names and literals of a script are woven. -/
abbrev Words (woven : List Helper → Bool → List Bracket → String → Prop) : List Part → Prop :=
  Every fun part => ∀ text ∈ part.written?, woven [] false [] text

/-- Code is woven if the names and literals of its script are. Steps are written behind their
receiver, whatever helpers it calls. -/
abbrev wovenCode (woven : List Helper → Bool → List Bracket → String → Prop) : Invariant where
  token _ token code used :=
    Words woven token.parts → ∀ indent, woven used false [] (code.write indent)
  tokens _ tokens code used :=
    Words woven (tokensParts tokens) → ∀ indent, woven used false [] (code.write indent)
  steps _ receiver steps code used := Words woven (stepsParts steps) → ∀ indent before,
    woven before false [] (receiver.write indent) →
      woven (used ++ before) false [] (code.write indent)
  arguments _ arguments codes used := (codes = [] → used = []) ∧
    (Words woven (argumentsParts arguments) →
      ∀ indent, woven used false [] (writeArguments indent codes))
  kind _ kind code used :=
    Words woven kind.parts → ∀ indent, woven used false [] (code.write indent)
  otherwise _ otherwise code used :=
    Words woven otherwise.parts → ∀ indent, woven used false [] (code.write indent)
  block _ _ body code used :=
    Words woven (bodyParts body) → ∀ indent, woven used false [] (writeLines indent code)

section Code

variable {woven : List Helper → Bool → List Bracket → String → Prop} (weave : Weave woven)

include weave

theorem Weave.params {params : List Param}
    (words : Words woven (params.map fun param => .declared param.name)) :
    woven [] false [] (String.intercalate ", " (params.map Param.name)) := by
  refine weave.intercalate fun name member => ?_
  obtain ⟨param, found, rfl⟩ := List.mem_map.mp member
  exact words _ (List.mem_map_of_mem found) _ rfl

theorem Weave.expressions : ExpressionRules (wovenCode woven) where
  number {_ value} _ _ := by
    rw [Target.Expr.write]
    exact weave.plain (by rw [String.toList_ofList]; exact Number.literalStyle.unmarked value)
  text words _ := words _ List.mem_cons_self _ rfl
  bool {_ value} _ _ := by
    rw [Target.Expr.write]
    exact weave.plain (by cases value <;> decide)
  null _ _ := by
    rw [Target.Expr.write]
    exact weave.plain (by decide)
  object words _ := weave.mark (weave.ahead rfl (words _ List.mem_cons_self _ rfl)) rfl
  array words _ := words _ List.mem_cons_self _ rfl
  group inner words indent :=
    weave.mark (weave.ahead rfl (inner (Every.cons_iff.mp words).2 indent)) rfl
  access _ taken words indent := by
    obtain ⟨first, rest⟩ := Every.cons_iff.mp words
    have all := taken rest indent [] (first _ rfl)
    rwa [List.append_nil] at all
  callee _ taken values words indent := by
    simp only [Token.parts, Every.cons_iff, Every.append_iff] at words
    have target := taken words.2.1 indent [] (words.1 _ rfl)
    rw [Target.Expr.write]
    exact weave.same (weave.mark (weave.inner (weave.mark target rfl)
      (values.2 words.2.2 indent)) rfl) (by simp [or_comm])
  helper _ taken _ values words indent := by
    simp only [Token.parts, stepsParts_append, Every.cons_iff, Every.append_iff] at words
    have target := taken words.2.1.1 indent [] (words.1 _ rfl)
    have all := weave.arguments target (values.2 words.2.2 indent) values.1
    rw [Target.Expr.write, Target.Expr.write]
    exact weave.same (weave.mark (weave.inner (weave.call _) all) rfl)
      (by simp [or_comm, or_assoc])
  lambda _ _ block words indent := by
    obtain ⟨params, body⟩ := Every.append_iff.mp words
    rw [Target.Expr.write]
    exact weave.same (weave.inner (weave.mark (weave.inner (weave.asyncMark _ rfl)
      (weave.params params)) rfl) (weave.braced (block body (indent + 1)) indent)) (by simp)
  await awaited words indent := weave.mark (weave.ahead rfl (awaited words indent)) rfl
  value single words := single (Every.append_iff.mp words).1
  unary _ operand words indent := weave.unary _ (operand words indent)
  binary front _ operand words indent := by
    simp only [tokensParts_eq_flatMap, List.flatMap_append, List.flatMap_cons,
      Every.append_iff] at words front operand
    exact weave.binary _ (front words.1 indent) (operand words.2.2 indent)
  noStep _ _ _ whole := whole
  property taken words indent before whole := by
    obtain ⟨name, words⟩ := Every.cons_iff.mp words
    exact taken words indent before (weave.inner (weave.mark whole rfl) (name _ rfl))
  index inner taken words indent before whole := by
    simp only [stepsParts, Every.cons_iff, Every.append_iff] at words
    have all := taken words.2.2 indent (_ ++ before)
      (weave.mark (weave.inner (weave.mark whole rfl) (inner words.2.1 indent)) rfl)
    rwa [← List.append_assoc] at all
  noArgument := ⟨fun _ => rfl, fun _ _ => weave.empty⟩
  argument first others := by
    refine ⟨fun empty => absurd empty (List.cons_ne_nil _ _), fun words indent => ?_⟩
    simp only [argumentsParts, Every.cons_iff, Every.append_iff] at words
    exact weave.arguments (first words.2.1 indent) (others.2 words.2.2 indent) others.1

theorem Weave.statements : StatementRules (wovenCode woven) where
  declare {_ _ _ _ _ type constant} inner words indent := by
    simp only [Kind.parts, Every.cons_iff] at words
    have stored := weave.truncate type (inner words.2.2 indent)
    have keyword : woven [] true [] (if constant then "const " else "let ") := by
      cases constant <;> exact weave.first rfl
    rw [Target.Stmt.write]
    exact weave.same (weave.mark (weave.inner (weave.mark (weave.inner keyword (words.1 _ rfl)) rfl)
      stored) rfl) (by simp)
  modify _ taken inner words indent := by
    simp only [Kind.parts, Every.cons_iff, Every.append_iff] at words
    have left := taken words.2.1 indent [] (words.1 _ rfl)
    rw [List.append_nil] at left
    exact weave.assignment _ _ left (inner words.2.2.2 indent)
  expression inner words indent := weave.mark (inner (Every.cons_iff.mp words).2 indent) rfl
  call called words indent := weave.mark (called words indent) rfl
  function _ _ block words indent := by
    simp only [Kind.parts, Every.cons_iff, Every.append_iff] at words
    rw [Target.Stmt.write]
    exact weave.same (weave.inner (weave.mark (weave.inner (weave.mark (weave.inner
      (weave.asyncMark _ rfl) (words.1 _ rfl)) rfl) (weave.params words.2.1)) rfl)
      (weave.braced (block words.2.2 (indent + 1)) indent)) (by simp)
  branch tested _ _ block rest words indent := by
    simp only [Kind.parts, Every.cons_iff, Every.append_iff] at words
    rw [Target.Stmt.write, List.append_assoc]
    exact weave.inner (weave.condition rfl (tested words.2.1 indent)
      (block words.2.2.1 (indent + 1))) (rest words.2.2.2 indent)
  loop tested _ _ block words indent := by
    simp only [Kind.parts, Every.cons_iff, Every.append_iff] at words
    exact weave.condition rfl (tested words.2.1 indent) (block words.2.2 (indent + 1))
  returnsNothing _ _ := by
    rw [Target.Stmt.write]
    exact weave.plain (by decide)
  returnsValue inner words indent := weave.mark (weave.ahead rfl
    (weave.truncate _ (inner (Every.cons_iff.mp words).2 indent))) rfl
  nothing _ _ := weave.empty
  block _ _ block words indent :=
    weave.ahead rfl (weave.braced (block words (indent + 1)) indent)
  elseIf tested _ _ block rest words indent := by
    simp only [Otherwise.parts, Every.cons_iff, Every.append_iff] at words
    rw [Target.Alternative.write, List.append_assoc]
    exact weave.inner (weave.condition rfl (tested words.2.1 indent)
      (block words.2.2.1 (indent + 1))) (rest words.2.2.2 indent)
  noStatement _ _ := weave.empty
  statement {_ stmt _ _ _ _ _ _ _} _ _ one behind words indent := by
    cases stmt
    obtain ⟨first, others⟩ := Every.append_iff.mp words
    exact weave.line (one first indent) (behind others indent) indent
  imports {_ stmt _ _ _ _ _} _ _ _ behind words := by
    cases stmt
    exact behind (Every.append_iff.mp words).2

end Code

/-- **The code of a script is woven** from its names and literals and from calls of helpers. -/
theorem BlockMade.woven {woven : List Helper → Bool → List Bracket → String → Prop}
    (weave : Weave woven) {toplevel : Bool} {inside : Context} {body : List Stmt}
    {code : List Target.Stmt} {used : List Helper}
    (made : BlockMade toplevel inside body code used) :
    Words woven (bodyParts body) → ∀ indent, woven used false [] (writeLines indent code) :=
  made.holds ⟨weave.expressions, weave.statements⟩

end TypedScript
