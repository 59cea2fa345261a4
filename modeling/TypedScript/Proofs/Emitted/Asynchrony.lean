/-
**Await only inside of async.** A function is emitted with `async` if its body awaits something
itself, and not only in a function inside it. Whether it does is found out on the script, ahead of the
code: a place that this search left out would be one where an `await` is emitted in a function that
does not allow it.
-/

import TypedScript.Proofs.Generation.Emission

namespace TypedScript

/-! ### Where something is awaited -/

mutual

/-- The tokens that a token is made of, itself included, but for what is inside a lambda. -/
def Token.all : Token → List Token
  | .group tokens => .group tokens :: allTokens tokens
  | .access base steps => .access base steps :: stepsTokens steps
  | .call base steps arguments =>
    .call base steps arguments :: (stepsTokens steps ++ argumentsTokens arguments)
  | .await operand => .await operand :: operand.all
  | token => [token]

def allTokens : List Token → List Token
  | [] => []
  | token :: rest => token.all ++ allTokens rest

def stepsTokens : List Step → List Token
  | [] => []
  | .property _ :: rest => stepsTokens rest
  | .index tokens :: rest => allTokens tokens ++ stepsTokens rest

def argumentsTokens : List (List Token) → List Token
  | [] => []
  | tokens :: rest => allTokens tokens ++ argumentsTokens rest

end

mutual

/-- The tokens of a statement, outside of the functions inside it. -/
def Kind.tokens : Kind → List Token
  | .declare _ _ value _ => allTokens value
  | .modify _ steps _ value => stepsTokens steps ++ allTokens value
  | .expression tokens => allTokens tokens
  | .branch condition body otherwise =>
    allTokens condition ++ (bodyTokens body ++ otherwise.tokens)
  | .loop condition body => allTokens condition ++ bodyTokens body
  | .call _ steps arguments => stepsTokens steps ++ argumentsTokens arguments
  | .returns (some tokens) => allTokens tokens
  | .function .. | .imports _ | .returns none => []

def Otherwise.tokens : Otherwise → List Token
  | .nothing => []
  | .block body => bodyTokens body
  | .elseIf _ condition body otherwise =>
    allTokens condition ++ (bodyTokens body ++ otherwise.tokens)

/-- The tokens of statements, outside of the functions inside them. -/
def bodyTokens : List Stmt → List Token
  | [] => []
  | .mk _ kind :: rest => kind.tokens ++ bodyTokens rest

end

mutual

theorem Token.awaits_iff (token : Token) :
    token.awaits = true ↔ ∃ operand, .await operand ∈ token.all := by
  cases token <;> simp [Token.awaits, Token.all, tokensAwait_iff, stepsAwait_iff,
    argumentsAwait_iff, exists_or]

theorem tokensAwait_iff (tokens : List Token) :
    tokensAwait tokens = true ↔ ∃ operand, .await operand ∈ allTokens tokens := by
  cases tokens <;> simp [tokensAwait, allTokens, Token.awaits_iff, tokensAwait_iff, exists_or]

theorem stepsAwait_iff (steps : List Step) :
    stepsAwait steps = true ↔ ∃ operand, .await operand ∈ stepsTokens steps := by
  cases steps with
  | nil => simp [stepsAwait, stepsTokens]
  | cons step rest =>
    cases step <;> simp [stepsAwait, stepsTokens, Step.awaits, tokensAwait_iff, stepsAwait_iff,
      exists_or]

theorem argumentsAwait_iff (arguments : List (List Token)) :
    argumentsAwait arguments = true ↔ ∃ operand, .await operand ∈ argumentsTokens arguments := by
  cases arguments <;> simp [argumentsAwait, argumentsTokens, tokensAwait_iff, argumentsAwait_iff,
    exists_or]

end

mutual

theorem Kind.awaits_iff (kind : Kind) :
    kind.awaits = true ↔ ∃ operand, .await operand ∈ kind.tokens := by
  cases kind with
  | returns value => cases value <;> simp [Kind.awaits, Kind.tokens, tokensAwait_iff]
  | _ =>
    simp [Kind.awaits, Kind.tokens, tokensAwait_iff, stepsAwait_iff, argumentsAwait_iff,
      Otherwise.awaits_iff, awaits_iff, exists_or, or_assoc, or_comm]

theorem Otherwise.awaits_iff (otherwise : Otherwise) :
    otherwise.awaits = true ↔ ∃ operand, .await operand ∈ otherwise.tokens := by
  cases otherwise <;> simp [Otherwise.awaits, Otherwise.tokens, tokensAwait_iff,
    Otherwise.awaits_iff, TypedScript.awaits_iff, exists_or, or_assoc]

/-- **A body awaits something exactly if an `await` stands in it**, outside of the functions inside
it. -/
theorem awaits_iff (body : List Stmt) :
    awaits body = true ↔ ∃ operand, .await operand ∈ bodyTokens body := by
  cases body with
  | nil => simp [awaits, bodyTokens]
  | cons stmt rest =>
    obtain ⟨line, kind⟩ := stmt
    simp [awaits, Stmt.awaits, bodyTokens, kind.awaits_iff, awaits_iff rest, exists_or]

end

theorem tokensAwait_append (front back : List Token) :
    tokensAwait (front ++ back) = (tokensAwait front || tokensAwait back) := by
  induction front with
  | nil => rfl
  | cons token rest ih => rw [List.cons_append, tokensAwait, tokensAwait, ih, Bool.or_assoc]

theorem stepsAwait_property (steps : List Step) (name : String) :
    stepsAwait (steps ++ [.property name]) = stepsAwait steps := by
  induction steps with
  | nil => rfl
  | cons step rest ih => rw [List.cons_append, stepsAwait, stepsAwait, ih]

/-! ### What is emitted -/

namespace Target

/-- What the functions of a program are marked for. -/
inductive Content where
  | await (operand : Expr)
  | function (async : Bool) (body : List Stmt)

mutual

/-- The awaits and functions of an expression, outside of the functions inside it. -/
def Expr.contents : Expr → List Content
  | .await operand => .await operand :: operand.contents
  | .arrow async _ body => [.function async body]
  | .member receiver _ => receiver.contents
  | .index receiver index => receiver.contents ++ index.contents
  | .call callee arguments => callee.contents ++ argumentsContents arguments
  | .not inner | .minus inner | .group inner | .toInt inner | .toUint inner => inner.contents
  | .binary _ left right => left.contents ++ right.contents
  | .number _ | .text _ | .bool _ | .null | .array _ | .object _ | .name _ => []

def argumentsContents : List Expr → List Content
  | [] => []
  | argument :: rest => argument.contents ++ argumentsContents rest

end

mutual

/-- The awaits and functions of a statement, outside of the functions inside it. -/
def Stmt.contents : Stmt → List Content
  | .declare _ _ value | .evaluate value | .returns (some value) => value.contents
  | .assign target _ value => target.contents ++ value.contents
  | .function async _ _ body => [.function async body]
  | .branch condition body alternative =>
    condition.contents ++ blockContents body ++ alternative.contents
  | .loop condition body => condition.contents ++ blockContents body
  | .returns none => []

def Alternative.contents : Alternative → List Content
  | .nothing => []
  | .block body => blockContents body
  | .elseIf condition body alternative =>
    condition.contents ++ blockContents body ++ alternative.contents

/-- The awaits and functions of a program, outside of its inner functions. -/
def blockContents : List Stmt → List Content
  | [] => []
  | stmt :: rest => stmt.contents ++ blockContents rest

end

/-- A function is marked as asynchronous exactly if it awaits something. -/
inductive Content.Marked : Content → Prop
  | await (operand : Expr) : Marked (.await operand)
  | function (await : async = true ↔ ∃ operand, .await operand ∈ blockContents body)
      (inner : ∀ content ∈ blockContents body, content.Marked) : Marked (.function async body)

theorem contents_unaryCode (op : Operator) (code : Expr) :
    (unaryCode op code).contents = code.contents := by
  cases op <;> simp only [unaryCode, Expr.contents]

theorem contents_truncate (type : Ty) (code : Expr) :
    (type.truncate code).contents = code.contents := by
  unfold Ty.truncate
  split_ifs
  · rw [Expr.contents]
  · rw [Expr.contents]
  · rfl

theorem mem_contents_assignmentCode (integer : Option Ty) (op : Operator) (target value : Expr)
    (content : Content) : content ∈ (assignmentCode integer op target value).contents ↔
      content ∈ target.contents ++ value.contents := by
  unfold assignmentCode
  split <;> simp [Stmt.contents, contents_truncate, Expr.contents]

end Target

open Target (blockContents)

/-- All functions are marked, and something is awaited exactly if it is said so. -/
structure Marked (awaiting : Bool) (contents : List Target.Content) : Prop where
  await : awaiting = true ↔ ∃ operand, .await operand ∈ contents
  each : ∀ content ∈ contents, content.Marked

namespace Marked

variable {awaiting awaiting' : Bool} {contents contents' : List Target.Content}

theorem nil : Marked false [] :=
  ⟨by simp, by simp⟩

theorem append (first : Marked awaiting contents) (second : Marked awaiting' contents') :
    Marked (awaiting || awaiting') (contents ++ contents') := by
  refine ⟨?_, List.forall_mem_append.mpr ⟨first.each, second.each⟩⟩
  rw [Bool.or_eq_true_iff, first.await, second.await]
  simp only [List.mem_append, exists_or]

theorem awaited {code : Target.Expr} (marked : Marked awaiting code.contents) :
    Marked true (Target.Expr.await code).contents :=
  ⟨⟨fun _ => ⟨code, .head _⟩, fun _ => rfl⟩,
    List.forall_mem_cons.mpr ⟨.await code, marked.each⟩⟩

theorem function {body : List Target.Stmt} (marked : Marked awaiting (blockContents body)) :
    Marked false [.function awaiting body] :=
  ⟨by simp, List.forall_mem_singleton.mpr (.function marked.await marked.each)⟩

end Marked

/-- Code is marked for what its script awaits. Steps await what their indices do, besides what their
receiver awaits. -/
abbrev awaitMarks : Invariant where
  token _ token code _ := Marked token.awaits code.contents
  tokens _ tokens code _ := Marked (tokensAwait tokens) code.contents
  steps _ receiver steps code _ := ∀ awaiting, Marked awaiting receiver.contents →
    Marked (awaiting || stepsAwait steps) code.contents
  arguments _ arguments codes _ :=
    Marked (argumentsAwait arguments) (Target.argumentsContents codes)
  kind _ kind code _ := Marked kind.awaits code.contents
  otherwise _ otherwise code _ := Marked otherwise.awaits code.contents
  block _ _ body code _ := Marked (awaits body) (blockContents code)

theorem awaitMarks_expressions : ExpressionRules awaitMarks where
  number := .nil
  text := .nil
  bool := .nil
  null := .nil
  object := .nil
  array := .nil
  group inner := inner
  access _ taken := taken false .nil
  callee _ taken values := (taken false .nil).append values
  helper _ taken _ values := by
    show Marked (stepsAwait (_ ++ [_]) || _) _
    rw [stepsAwait_property]
    exact (taken false .nil).append values
  lambda _ _ block := .function block
  await awaited := awaited.awaited
  value single := by
    show Marked (tokensAwait [_]) _
    rwa [tokensAwait, tokensAwait, Bool.or_false]
  unary _ operand := by
    show Marked _ (unaryCode _ _).contents
    rwa [Target.contents_unaryCode]
  binary front _ operand := by
    show Marked (tokensAwait (_ ++ _)) _
    rw [tokensAwait_append]
    exact front.append operand
  noStep awaiting start := by rwa [stepsAwait, Bool.or_false]
  property taken := taken
  index inner taken awaiting start := by
    rw [stepsAwait, ← Bool.or_assoc]
    exact taken _ (start.append inner)
  noArgument := .nil
  argument first others := first.append others

theorem awaitMarks_statements : StatementRules awaitMarks where
  declare inner := by
    show Marked _ (Target.Stmt.declare _ _ _).contents
    rwa [Target.Stmt.contents, Target.contents_truncate]
  modify _ taken inner := by
    have both := (taken false .nil).append inner
    show Marked (_ || _) _
    rw [Bool.or_comm]
    refine ⟨?_, fun content listed => ?_⟩
    · simpa only [Bool.false_or, Target.mem_contents_assignmentCode] using both.await
    · exact both.each content ((Target.mem_contents_assignmentCode ..).mp listed)
  expression inner := inner
  call called := called
  function _ _ block := .function block
  branch tested _ _ block rest := (tested.append block).append rest
  loop tested _ _ block := tested.append block
  returnsNothing := .nil
  returnsValue inner := by
    show Marked _ (Target.Stmt.returns (some _)).contents
    rwa [Target.Stmt.contents, Target.contents_truncate]
  nothing := .nil
  block _ _ block := block
  elseIf tested _ _ block rest := (tested.append block).append rest
  noStatement := .nil
  statement {_ stmt _ _ _ _ _ _ _} _ _ one behind := by
    cases stmt
    exact one.append behind
  imports {_ stmt _ _ _ _ _} _ _ isImport behind := by
    obtain ⟨line, kind⟩ := stmt
    cases kind with
    | imports => exact behind
    | _ => contradiction

/-- **What is generated is marked.** -/
theorem BlockMade.marked {toplevel : Bool} {place : Context} {body : List Stmt}
    {code : List Target.Stmt} {used : List Helper} (made : BlockMade toplevel place body code used) :
    Marked (awaits body) (blockContents code) :=
  made.holds ⟨awaitMarks_expressions, awaitMarks_statements⟩

/-- **Await only inside of async.** A body awaits something exactly if an `await` stands in it
outside of the functions inside it. So a function of an accepted script is emitted with `async`
exactly if there is an `await` in its code outside of the functions inside that, and what is awaited
outside of all functions stands in the outermost one, which is asynchronous. -/
theorem await_inside_async :
    (∀ body, awaits body = true ↔ ∃ operand, .await operand ∈ bodyTokens body) ∧
    ∀ load check script, (compile load check script).diagnostics = [] →
      ∃ body front, (generateLevel true script (.start load)).1 = some body ∧
        (compile load check script).code =
          "(async () => \x7b\n// Embedded imports\n" ++ front ++ Target.writeLines 1 body ++
            "\x7d)();\n" ∧
        ∀ content ∈ blockContents body, content.Marked := by
  refine ⟨awaits_iff, fun load check script accepted => ?_⟩
  obtain ⟨_, body, last, _, -, run, -, -, -, made, code⟩ := compile_made accepted
  refine ⟨body, String.join (last.imports.map Module.definition) ++ Helper.definitions last.helpers,
    by rw [run], ?_, made.marked.each⟩
  exact code.trans (congrArg (· ++ Target.writeLines 1 body ++ _) (String.append_assoc ..))

/-- A function that awaits something in an index, and a lambda in it that does not. -/
theorem await_inside_async_nested :
    let load : String → Except Cause Module := fun path => .error (.variableNotDeclared path)
    let index : List Token := [.await .null]
    let lambda : Token := .lambda [] [.mk 4 (.expression [.lambda [] [.mk 5 (.expression index)]])]
    let script := [Stmt.mk 1 (.function "f" [⟨"a", .any⟩] .void
      [.mk 2 (.modify "a" [.index index] .assign [lambda])])]
    (compile load false script).diagnostics = [] ∧
      ∃ body front, (generateLevel true script (.start load)).1 = some body ∧
        (compile load false script).code =
          "(async () => \x7b\n// Embedded imports\n" ++ front ++ Target.writeLines 1 body ++
            "\x7d)();\n" ∧
        ∀ content ∈ blockContents body, content.Marked := by
  intro load index lambda script
  have accepted : (compile load false script).diagnostics = [] := rfl
  exact ⟨accepted, await_inside_async.2 load false script accepted⟩

end TypedScript
