/-
**The lines of a script.** A statement carries the line it starts on, and so does a further branch of
an `if`. The spots of a script are all these lines, those of inner blocks included, and for a
statement that is a single call what is called.
-/

import TypedScript.Syntax.Statements

namespace TypedScript

/-- A line of a script, and the base of the call if a single call stands there. -/
structure Spot where
  line : Nat
  callee : Option String
  deriving DecidableEq, Repr

def Kind.callee? : Kind → Option String
  | .call base _ _ => some base
  | _ => none

mutual

def Token.spots : Token → List Spot
  | .access _ steps => stepsSpots steps
  | .group tokens => tokensSpots tokens
  | .call _ steps arguments => stepsSpots steps ++ argumentsSpots arguments
  | .lambda _ body => bodySpots body
  | .await operand => operand.spots
  | .number _ | .text _ | .bool _ | .null | .operator _ | .object _ | .array _ => []

def tokensSpots : List Token → List Spot
  | [] => []
  | token :: rest => token.spots ++ tokensSpots rest

def stepsSpots : List Step → List Spot
  | [] => []
  | .property _ :: rest => stepsSpots rest
  | .index tokens :: rest => tokensSpots tokens ++ stepsSpots rest

def argumentsSpots : List (List Token) → List Spot
  | [] => []
  | tokens :: rest => tokensSpots tokens ++ argumentsSpots rest

/-- The spots inside a statement. -/
def Kind.spots : Kind → List Spot
  | .declare _ _ value _ => tokensSpots value
  | .modify _ steps _ value => stepsSpots steps ++ tokensSpots value
  | .expression tokens => tokensSpots tokens
  | .function _ _ _ body => bodySpots body
  | .branch condition body otherwise =>
    tokensSpots condition ++ (bodySpots body ++ otherwise.spots)
  | .loop condition body => tokensSpots condition ++ bodySpots body
  | .call _ steps arguments => stepsSpots steps ++ argumentsSpots arguments
  | .imports _ => []
  | .returns none => []
  | .returns (some tokens) => tokensSpots tokens

def Otherwise.spots : Otherwise → List Spot
  | .nothing => []
  | .block body => bodySpots body
  | .elseIf line condition body otherwise =>
    ⟨line, none⟩ :: (tokensSpots condition ++ (bodySpots body ++ otherwise.spots))

/-- All spots of statements. -/
def bodySpots : List Stmt → List Spot
  | [] => []
  | .mk line kind :: rest => ⟨line, kind.callee?⟩ :: (kind.spots ++ bodySpots rest)

end

/-- The spots of a statement, its own one included. -/
def Stmt.spots (stmt : Stmt) : List Spot :=
  ⟨stmt.line, stmt.kind.callee?⟩ :: stmt.kind.spots

theorem tokensSpots_eq_flatMap (tokens : List Token) :
    tokensSpots tokens = tokens.flatMap Token.spots := by
  induction tokens with
  | nil => rfl
  | cons token rest ih => rw [tokensSpots, List.flatMap_cons, ih]

theorem stepsSpots_append (front back : List Step) :
    stepsSpots (front ++ back) = stepsSpots front ++ stepsSpots back := by
  induction front with
  | nil => rfl
  | cons step rest ih => cases step <;> simp [stepsSpots, ih]

theorem bodySpots_eq_flatMap (body : List Stmt) : bodySpots body = body.flatMap Stmt.spots := by
  induction body with
  | nil => rfl
  | cons stmt rest ih =>
    obtain ⟨line, kind⟩ := stmt
    rw [bodySpots, List.flatMap_cons, ih]
    rfl

/-- Spots that are all of one kind. -/
def Good (good : Spot → Prop) (spots : List Spot) : Prop :=
  ∀ spot ∈ spots, good spot

namespace Good

variable {good : Spot → Prop} {spot : Spot} {spots others : List Spot}

theorem nil : Good good [] :=
  nofun

theorem cons_iff : Good good (spot :: spots) ↔ good spot ∧ Good good spots :=
  List.forall_mem_cons

theorem append_iff : Good good (spots ++ others) ↔ Good good spots ∧ Good good others :=
  List.forall_mem_append

theorem tokens_iff {tokens : List Token} :
    Good good (tokensSpots tokens) ↔ ∀ token ∈ tokens, Good good token.spots := by
  rw [tokensSpots_eq_flatMap]
  exact List.forall_mem_flatMap

theorem body_iff {body : List Stmt} :
    Good good (bodySpots body) ↔ ∀ stmt ∈ body, Good good stmt.spots := by
  rw [bodySpots_eq_flatMap]
  exact List.forall_mem_flatMap

end Good

theorem ofTokens_spots (tokens : List Token) : (Kind.ofTokens tokens).spots = tokensSpots tokens := by
  unfold Kind.ofTokens
  split
  · rw [tokensSpots, tokensSpots, List.append_nil]
    rfl
  · rfl

theorem Otherwise.attach?_spots (added : Otherwise) : ∀ {otherwise joined : Otherwise},
    added.attach? otherwise = some joined → joined.spots = otherwise.spots ++ added.spots
  | .nothing, joined, attached => by
    obtain rfl := Option.some.inj attached
    rfl
  | .block _, _, attached => nomatch attached
  | .elseIf line condition body otherwise, joined, attached => by
    rw [Otherwise.attach?] at attached
    split at attached
    · rename_i further found
      obtain rfl := Option.some.inj attached
      simp [Otherwise.spots, attach?_spots added found]
    · contradiction

/-- A branch that is put behind a statement adds its spots. -/
theorem Stmt.attach?_spots {added : Otherwise} {stmt joined : Stmt}
    (attached : stmt.attach? added = some joined) : joined.spots = stmt.spots ++ added.spots := by
  unfold Stmt.attach? at attached
  split at attached
  · split at attached
    · rename_i further found
      obtain rfl := Option.some.inj attached
      simp [Stmt.spots, Stmt.kind, Stmt.line, Kind.callee?, Kind.spots,
        Otherwise.attach?_spots added found]
    · contradiction
  · contradiction

end TypedScript
