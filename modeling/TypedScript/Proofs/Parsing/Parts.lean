/-
**Parts of scripts.** What a script is made of at any depth: its expressions, the names in it, and
its literals. Generation relies on what every expression looks like, and the text of a program on
what the names are written with.
-/

import Mathlib.Data.List.Chain
import TypedScript.Proofs.Printing.Print
import TypedScript.Syntax.Statements

namespace TypedScript

open Text

/-- What a script consists of. -/
inductive Part where
  /-- A whole expression: a value, a condition, a group, an index or an argument. -/
  | expression (tokens : List Token)
  /-- The base of an access, a call or a modification. -/
  | base (name : String)
  | property (name : String)
  | declared (name : String)
  | text (value : String)
  /-- A list or an object. -/
  | literal (value : Json)

mutual

/-- The parts of a token. -/
def Token.parts : Token → List Part
  | .text value => [.text value]
  | .access base steps => .base base :: stepsParts steps
  | .group tokens => .expression tokens :: tokensParts tokens
  | .object literal => [.literal literal.value]
  | .array literal => [.literal literal.value]
  | .call base steps arguments => .base base :: (stepsParts steps ++ argumentsParts arguments)
  | .lambda params body => params.map (fun param => .declared param.name) ++ bodyParts body
  | .await operand => operand.parts
  | .number _ | .bool _ | .null | .operator _ => []

def tokensParts : List Token → List Part
  | [] => []
  | token :: rest => token.parts ++ tokensParts rest

def stepsParts : List Step → List Part
  | [] => []
  | .property name :: rest => .property name :: stepsParts rest
  | .index tokens :: rest => .expression tokens :: (tokensParts tokens ++ stepsParts rest)

def argumentsParts : List (List Token) → List Part
  | [] => []
  | tokens :: rest => .expression tokens :: (tokensParts tokens ++ argumentsParts rest)

/-- The parts of a statement. -/
def Kind.parts : Kind → List Part
  | .declare name _ value _ => .declared name :: .expression value :: tokensParts value
  | .modify base steps _ value =>
    .base base :: (stepsParts steps ++ .expression value :: tokensParts value)
  | .expression tokens => .expression tokens :: tokensParts tokens
  | .function name params _ body =>
    .declared name :: (params.map (fun param => .declared param.name) ++ bodyParts body)
  | .branch condition body otherwise =>
    .expression condition :: (tokensParts condition ++ (bodyParts body ++ otherwise.parts))
  | .loop condition body => .expression condition :: (tokensParts condition ++ bodyParts body)
  | .call base steps arguments => .base base :: (stepsParts steps ++ argumentsParts arguments)
  | .imports _ => []
  | .returns none => []
  | .returns (some tokens) => .expression tokens :: tokensParts tokens

/-- The parts of the other side of a branch. -/
def Otherwise.parts : Otherwise → List Part
  | .nothing => []
  | .block body => bodyParts body
  | .elseIf _ condition body otherwise =>
    .expression condition :: (tokensParts condition ++ (bodyParts body ++ otherwise.parts))

/-- All parts of statements, those of inner blocks included. -/
def bodyParts : List Stmt → List Part
  | [] => []
  | .mk _ kind :: rest => kind.parts ++ bodyParts rest

end

def expressionParts (tokens : List Token) : List Part :=
  .expression tokens :: tokensParts tokens

theorem tokensParts_eq_flatMap (tokens : List Token) :
    tokensParts tokens = tokens.flatMap Token.parts := by
  induction tokens with
  | nil => rfl
  | cons token rest ih => rw [tokensParts, List.flatMap_cons, ih]

theorem stepsParts_append (front back : List Step) :
    stepsParts (front ++ back) = stepsParts front ++ stepsParts back := by
  induction front with
  | nil => rfl
  | cons step rest ih => cases step <;> simp [stepsParts, ih]

theorem bodyParts_eq_flatMap (body : List Stmt) :
    bodyParts body = body.flatMap fun stmt => stmt.kind.parts := by
  induction body with
  | nil => rfl
  | cons stmt rest ih =>
    obtain ⟨line, kind⟩ := stmt
    rw [bodyParts, List.flatMap_cons, ih]
    rfl

/-! ### Sound parts -/

/-- Whether a token may stand in an expression: it is no assignment, and what it awaits is a value
that does not wait for another one. -/
def Token.isAllowed : Token → Bool
  | .operator op => !op.isAssignment
  | .await operand => operand.isValue && !operand.isAwait
  | _ => true

theorem Token.isAllowed_of_isValue {token : Token} (isValue : token.isValue = true)
    (single : token.isAwait = false) : token.isAllowed = true := by
  cases token <;> first | rfl | contradiction

theorem Token.isAllowed_awaited {operand : Token} (allowed : (Token.await operand).isAllowed = true) :
    operand.isValue = true ∧ operand.isAllowed = true := by
  rw [Token.isAllowed, Bool.and_eq_true, Bool.not_eq_true'] at allowed
  exact ⟨allowed.1, Token.isAllowed_of_isValue allowed.1 allowed.2⟩

/-- Two tokens that may stand side by side. -/
def Token.Apart (left right : Token) : Prop :=
  left.isValue = true → right.isValue = false

/-- An expression as generation relies on it. -/
structure WellFormed (tokens : List Token) : Prop where
  nonempty : tokens ≠ []
  ends : tokens.getLast?.any Token.isValue = true
  apart : tokens.IsChain Token.Apart
  allowed : ∀ token ∈ tokens, token.isAllowed = true

def isNameChar (c : Char) : Bool :=
  isWordChar c || continuesDeclared c

/-- The variable that a token reads as a whole, also if it is awaited. -/
def Token.soleName? : Token → Option String
  | .access name [] => some name
  | .await operand => operand.soleName?
  | _ => none

/-- Well-formed expressions, and names that are words. -/
def Part.IsRead : Part → Prop
  | .expression tokens => WellFormed tokens ∧
    ∀ token ∈ tokens, ∀ name ∈ token.soleName?, isReserved name = false
  | .base name => isIdentifier name.toList = true
  | .property name => name.toList ≠ [] ∧ ∀ c ∈ name.toList, isWordChar c = true
  | .declared name => ∀ c ∈ name.toList, isNameChar c = true
  | .text _ | .literal _ => True

/-- What generation relies on. -/
def Part.IsSound : Part → Prop
  | .expression tokens => WellFormed tokens
  | .base name | .property name | .declared name => ∀ c ∈ name.toList, isNameChar c = true
  | .text _ | .literal _ => True

/-- All parts are of a kind. -/
def Every (kind : Part → Prop) (parts : List Part) : Prop :=
  ∀ part ∈ parts, kind part

/-- All parts are sound. -/
abbrev Sound : List Part → Prop :=
  Every Part.IsSound

namespace Every

variable {kind : Part → Prop} {part : Part} {parts others : List Part}

@[simp] theorem nil : Every kind [] :=
  nofun

@[simp] theorem cons_iff : Every kind (part :: parts) ↔ kind part ∧ Every kind parts :=
  List.forall_mem_cons

theorem single (holds : kind part) : Every kind [part] :=
  cons_iff.mpr ⟨holds, nil⟩

@[simp] theorem append_iff : Every kind (parts ++ others) ↔ Every kind parts ∧ Every kind others :=
  List.forall_mem_append

theorem tokens_iff {tokens : List Token} :
    Every kind (tokensParts tokens) ↔ ∀ token ∈ tokens, Every kind token.parts := by
  rw [tokensParts_eq_flatMap]
  exact List.forall_mem_flatMap

theorem body_iff {body : List Stmt} :
    Every kind (bodyParts body) ↔ ∀ stmt ∈ body, Every kind stmt.kind.parts := by
  rw [bodyParts_eq_flatMap]
  exact List.forall_mem_flatMap

end Every

theorem Otherwise.attach?_parts (added : Otherwise) : ∀ {otherwise joined : Otherwise},
    added.attach? otherwise = some joined → joined.parts = otherwise.parts ++ added.parts
  | .nothing, joined, attached => by
    obtain rfl := Option.some.inj attached
    rfl
  | .block _, _, attached => nomatch attached
  | .elseIf line condition body otherwise, joined, attached => by
    rw [Otherwise.attach?] at attached
    split at attached
    · rename_i further found
      obtain rfl := Option.some.inj attached
      simp [Otherwise.parts, attach?_parts added found]
    · contradiction

/-- A branch that is put behind a statement adds its parts. -/
theorem Stmt.attach?_parts {added : Otherwise} {stmt joined : Stmt}
    (attached : stmt.attach? added = some joined) :
    joined.kind.parts = stmt.kind.parts ++ added.parts := by
  unfold Stmt.attach? at attached
  split at attached
  · split at attached
    · rename_i further found
      obtain rfl := Option.some.inj attached
      simp [Stmt.kind, Kind.parts, Otherwise.attach?_parts added found]
    · contradiction
  · contradiction

end TypedScript
