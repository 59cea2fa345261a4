/-
**Awaiting.** A function in whose body `await` stands, other than in a function inside it, is
asynchronous.
-/

import TypedScript.Syntax.Tree

namespace TypedScript

mutual

/-- Whether a token awaits something, lambdas apart. -/
def Token.awaits : Token → Bool
  | .await _ => true
  | .group tokens => tokensAwait tokens
  | .access _ steps => stepsAwait steps
  | .call _ steps arguments => stepsAwait steps || argumentsAwait arguments
  | _ => false

/-- Whether an expression does. -/
def tokensAwait : List Token → Bool
  | [] => false
  | token :: rest => token.awaits || tokensAwait rest

/-- Whether an index does. -/
def Step.awaits : Step → Bool
  | .property _ => false
  | .index tokens => tokensAwait tokens

/-- Whether the steps of an access do. -/
def stepsAwait : List Step → Bool
  | [] => false
  | step :: rest => step.awaits || stepsAwait rest

/-- Whether the arguments of a call do. -/
def argumentsAwait : List (List Token) → Bool
  | [] => false
  | tokens :: rest => tokensAwait tokens || argumentsAwait rest

end

mutual

/-- Whether a statement awaits something. -/
def Stmt.awaits : Stmt → Bool
  | .mk _ kind => kind.awaits

/-- Whether what a statement does awaits something. -/
def Kind.awaits : Kind → Bool
  | .declare _ _ value _ => tokensAwait value
  | .modify _ steps _ value => tokensAwait value || stepsAwait steps
  | .expression tokens => tokensAwait tokens
  | .function .. => false
  | .branch condition body otherwise =>
    tokensAwait condition || awaits body || otherwise.awaits
  | .loop condition body => tokensAwait condition || awaits body
  | .call _ steps arguments => stepsAwait steps || argumentsAwait arguments
  | .imports _ => false
  | .returns none => false
  | .returns (some tokens) => tokensAwait tokens

/-- Whether the other side of a branch awaits something. -/
def Otherwise.awaits : Otherwise → Bool
  | .nothing => false
  | .block body => TypedScript.awaits body
  | .elseIf _ condition body otherwise =>
    tokensAwait condition || TypedScript.awaits body || otherwise.awaits

/-- Whether one of several statements awaits something. -/
def awaits : List Stmt → Bool
  | [] => false
  | stmt :: rest => stmt.awaits || awaits rest

end

end TypedScript
