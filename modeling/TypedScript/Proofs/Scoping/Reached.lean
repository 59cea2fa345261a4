/-
**States that are reached.** Generating a script runs many steps inside each other: the statements
of a block, their expressions, the lambdas in these, and so on. A state is reached where one of these
steps begins or ends.
-/

import TypedScript.Proofs.Scoping.Consistency

namespace TypedScript

/-- A step of generation and the part of the script it is for; `Work.run`: the context behind it. -/
inductive Work where
  | level (toplevel : Bool) (block : List Stmt)
  | hoist (block : List Stmt)
  | statements (toplevel : Bool) (block : List Stmt)
  | statement (toplevel : Bool) (stmt : Stmt)
  | otherwise (line : Nat) (otherwise : Otherwise)
  | parameters (line : Nat) (bindings : List Binding)
  | block (line : Nat) (bindings : List Binding) (body : List Stmt)
  | function (line : Nat) (params : List Param) (returns : Ty) (body : List Stmt)
  | expression (line : Nat) (before : Operand) (tokens : List Token)
  | value (line : Nat) (token : Token)
  /-- An access that starts like the steps `known` do, and takes the given ones. -/
  | access (line : Nat) (base : String) (known : List Step) (beforeLast : Bool) (steps : List Step)
  | steps (line : Nat) (beforeLast : Bool) (taken : Nat) (receiver : Value) (steps : List Step)
  | step (line : Nat) (receiver : Value) (step : Step)
  | call (line : Nat) (awaited : Bool) (base : String) (steps : List Step)
      (arguments : List (List Token))
  | target (line : Nat) (base : String) (steps : List Step)
  | arguments (line : Nat) (arguments : List (List Token))

def takeSteps (line : Nat) (path : List Step) (beforeLast : Bool) (taken : Nat) (start : Value) :
    Gen Value :=
  generateSteps line beforeLast taken start path

def Work.run : Work → Context → Context
  | .level toplevel body, place => (generateLevel toplevel body place).2
  | .hoist body, place => (TypedScript.hoist body place).2
  | .statements toplevel body, place => (generateStatements toplevel body place).2
  | .statement toplevel stmt, place => (generateStatement toplevel stmt place).2
  | .otherwise line other, place => (generateOtherwise line other place).2
  | .parameters line bindings, place => (Gen.declareAll line bindings place).2
  | .block line bindings body, place => (generateBlock body bindings line place).2
  | .function line params returns body, place =>
    (functionBody params returns line (generateLevel false body) place).2
  | .expression line before tokens, place => (generateExpression line before tokens place).2
  | .value line token, place => (generateValue line token place).2
  | .access line base known beforeLast path, place =>
    (resolveWith base known line (takeSteps line path beforeLast) place).2
  | .steps line beforeLast taken receiver path, place =>
    (generateSteps line beforeLast taken receiver path place).2
  | .step line receiver next, place => (generateStep line receiver next place).2
  | .call line awaited base path values, place =>
    (generateCall awaited line (generateArguments line values)
      (callTarget base path line (takeSteps line path)) place).2
  | .target line base path, place => (callTarget base path line (takeSteps line path) place).2
  | .arguments line values, place => (generateArguments line values place).2

def Context.callsModule (place : Context) (base : String) : List Step → Bool
  | [.property _] => (place.scopes.lookup? base).isNone && (place.module? base).isSome
  | _ => false

/-- The start of a whole expression. -/
abbrev Work.tokens (line : Nat) (tokens : List Token) : Work :=
  .expression line (.wanted none []) tokens

/-- Inside a step another one begins, in the context that the first one has led to. -/
inductive Begins : Work → Context → Work → Context → Prop
  -- Blocks: first the functions are declared, then the statements are generated one by one.
  | functions : Begins (.level toplevel block) place (.hoist block) place
  | statements :
      Begins (.level toplevel block) place (.statements toplevel block) (hoist block place).2
  | nextFunction : Begins (.hoist (stmt :: rest)) place (.hoist rest) (hoist [stmt] place).2
  | statement : Begins (.statements toplevel (stmt :: rest)) place (.statement toplevel stmt) place
  | nextStatement :
      Begins (.statements toplevel (stmt :: rest)) place (.statements toplevel rest)
        (generateStatement toplevel stmt place).2
  -- Inner blocks: the parameters are declared in a new frame, then the block follows.
  | parameters :
      Begins (.block line bindings body) place (.parameters line bindings) place.enterBlock
  | nextParameter :
      Begins (.parameters line (binding :: rest)) place (.parameters line rest)
        (Gen.declareAll line [binding] place).2
  | body :
      Begins (.block line bindings body) place (.level false body)
        (Gen.declareAll line bindings place.enterBlock).2
  | functionBlock (known : parameterBindings line params place = (some bindings, behind)) :
      Begins (.function line params returns body) place (.block line bindings body)
        (behind.enterFunction returns)
  -- Statements
  | declared (passed : checkVariableType type line place = (some (), behind)) :
      Begins (.statement toplevel (.mk line (.declare name type value constant))) place
        (.tokens line value)
        (if behind.isTaken name then behind.report (.alreadyDeclared name) line else behind)
  | modified (passed : integerTarget base steps line place = (some integer, behind)) :
      Begins (.statement toplevel (.mk line (.modify base steps op value))) place
        (.access line base steps false steps) behind
  | assigned (passed : integerTarget base steps line place = (some integer, behind)) :
      Begins (.statement toplevel (.mk line (.modify base steps op value))) place
        (.tokens line value) ((Work.access line base steps false steps).run behind)
  | evaluated :
      Begins (.statement toplevel (.mk line (.expression tokens))) place (.tokens line tokens) place
  | called :
      Begins (.statement toplevel (.mk line (.call base steps arguments))) place
        (.call line false base steps arguments) place
  | function :
      Begins (.statement toplevel (.mk line (.function name params returns body))) place
        (.function line params returns body)
        (reachFunction name (checkReturnType returns line place).2).2
  | tested :
      Begins (.statement toplevel (.mk line (.branch condition body otherwise))) place
        (.tokens line condition) place
  | branch :
      Begins (.statement toplevel (.mk line (.branch condition body otherwise))) place
        (.block line [] body) (generateCondition "If" (generateTokens condition line) line place).2
  | otherwise :
      Begins (.statement toplevel (.mk line (.branch condition body otherwise))) place
        (.otherwise line otherwise)
        ((Work.block line [] body).run
          (generateCondition "If" (generateTokens condition line) line place).2)
  | repeated :
      Begins (.statement toplevel (.mk line (.loop condition body))) place (.tokens line condition)
        place
  | loop :
      Begins (.statement toplevel (.mk line (.loop condition body))) place (.block line [] body)
        (generateCondition "While" (generateTokens condition line) line place).2
  | returned (passed : returnType line place = (some expected, behind)) :
      Begins (.statement toplevel (.mk line (.returns (some tokens)))) place (.tokens line tokens)
        behind
  | elseBlock : Begins (.otherwise line (.block body)) place (.block line [] body) place
  | elseTested :
      Begins (.otherwise outer (.elseIf line condition body otherwise)) place
        (.tokens line condition) place
  | elseBranch :
      Begins (.otherwise outer (.elseIf line condition body otherwise)) place (.block line [] body)
        (generateCondition "If" (generateTokens condition line) line place).2
  | elseOtherwise :
      Begins (.otherwise outer (.elseIf line condition body otherwise)) place
        (.otherwise line otherwise)
        ((Work.block line [] body).run
          (generateCondition "If" (generateTokens condition line) line place).2)
  -- Expressions
  | operand (isValue : token.isValue = true) :
      Begins (.expression line (.wanted left prefixes) (token :: rest)) place (.value line token)
        place
  | behindOperand (isValue : token.isValue = true)
      (taken : before.afterValue line (generateValue line token) place = (some next, after)) :
      Begins (.expression line before (token :: rest)) place (.expression line next rest) after
  | behindOperator (taken : before.afterOperator line op place = (some next, after)) :
      Begins (.expression line before (.operator op :: rest)) place (.expression line next rest)
        after
  | group : Begins (.value line (.group tokens)) place (.tokens line tokens) place
  | accessed :
      Begins (.value line (.access base steps)) place (.access line base steps false steps) place
  | calledValue :
      Begins (.value line (.call base steps arguments)) place
        (.call line false base steps arguments) place
  | lambda :
      Begins (.value line (.lambda params body)) place (.function line params .any body) place
  | awaitedCall :
      Begins (.value line (.await (.call base steps arguments))) place
        (.call line true base steps arguments) place
  | awaited (plain : ∀ base steps arguments, operand ≠ .call base steps arguments) :
      Begins (.value line (.await operand)) place (.value line operand) place
  -- Accesses and calls
  | walk (found : resolveBase base known line place = (some (start, taken), resolved)) :
      Begins (.access line base known beforeLast steps) place
        (.steps line beforeLast taken start steps) resolved
  | passStep (more : (beforeLast && rest.isEmpty) = false) :
      Begins (.steps line beforeLast (taken + 1) receiver (step :: rest)) place
        (.steps line beforeLast taken receiver rest) place
  | takeStep (more : (beforeLast && rest.isEmpty) = false) :
      Begins (.steps line beforeLast 0 receiver (step :: rest)) place (.step line receiver step)
        place
  | nextStep (more : (beforeLast && rest.isEmpty) = false)
      (taken : generateStep line receiver step place = (some next, after)) :
      Begins (.steps line beforeLast 0 receiver (step :: rest)) place
        (.steps line beforeLast 0 next rest) after
  | index (passed : Gen.ofExcept receiver.type.indexed line place = (some types, behind)) :
      Begins (.step line receiver (.index tokens)) place (.tokens line tokens) behind
  | arguments :
      Begins (.call line awaited base steps arguments) place (.arguments line arguments) place
  | target :
      Begins (.call line awaited base steps arguments) place (.target line base steps)
        (generateArguments line arguments place).2
  | indexTarget (inner : place.callsModule base steps = false)
      (last : steps.getLast? = some (.index tokens)) :
      Begins (.target line base steps) place (.access line base steps false steps) place
  | memberTarget (inner : place.callsModule base steps = false)
      (last : steps.getLast? = some (.property name)) :
      Begins (.target line base steps) place (.access line base steps.dropLast true steps) place
  | argument : Begins (.arguments line (tokens :: rest)) place (.tokens line tokens) place
  | nextArgument :
      Begins (.arguments line (tokens :: rest)) place (.arguments line rest)
        (generateTokens tokens line place).2

/-- The steps that begin while a script is compiled, and their contexts. -/
inductive Reached (load : String → Except Cause Module) (script : List Stmt) :
    Work → Context → Prop
  | start : Reached load script (.level true script) (.start load)
  | inside (reached : Reached load script work place) (begins : Begins work place next after) :
      Reached load script next after

/-! ### What is always true -/

open Context (SamePlace)

/-- A step is run in a consistent context. Parameters are declared inside a block. -/
structure Work.Fits (work : Work) (place : Context) : Prop where
  consistent : place.Consistent
  inside : ∀ line bindings, work = .parameters line bindings → place.scopes.inner ≠ []

theorem generateBlock_keeps (body : List Stmt) (bindings : List Binding) (line : Nat) :
    Gen.Keeps SamePlace (generateBlock body bindings line) :=
  (level_keeps (generateStatements_keeps body)).inBlock

theorem takeSteps_keeps (line : Nat) (path : List Step) (beforeLast : Bool) (taken : Nat)
    (start : Value) : Gen.Keeps SamePlace (takeSteps line path beforeLast taken start) :=
  generateSteps_keeps line beforeLast taken start path

/-- **A step ends in a consistent context.** -/
theorem Work.Fits.run {work : Work} {place : Context} (fits : work.Fits place) :
    (work.run place).Consistent := by
  have consistent := fits.consistent
  cases work with
  | level toplevel body => exact generateLevel_consistent toplevel body place consistent
  | hoist body => exact hoist_consistent body place consistent
  | statements toplevel body => exact generateStatements_consistent toplevel body place consistent
  | statement toplevel stmt => exact generateStatement_consistent toplevel stmt place consistent
  | parameters line bindings =>
    exact (declareAll_consistent line bindings consistent (fits.inside line bindings rfl)).1
  | otherwise line other => exact consistent.samePlace (generateOtherwise_keeps line other place)
  | block line bindings body =>
    exact consistent.samePlace (generateBlock_keeps body bindings line place)
  | function line params returns body =>
    exact consistent.samePlace
      (functionBody_keeps (level_keeps (generateStatements_keeps body)) place)
  | expression line before tokens =>
    exact consistent.samePlace (generateExpression_keeps line before tokens place)
  | value line token => exact consistent.samePlace (generateValue_keeps line token place)
  | access line base known beforeLast path =>
    exact consistent.samePlace (resolveWith_keeps (takeSteps_keeps line path beforeLast) place)
  | steps line beforeLast taken receiver path =>
    exact consistent.samePlace (generateSteps_keeps line beforeLast taken receiver path place)
  | step line receiver next =>
    exact consistent.samePlace (generateStep_keeps line receiver next place)
  | call line awaited base path values =>
    exact consistent.samePlace (generateCall_keeps (generateArguments_keeps line values)
      (callTarget_keeps (takeSteps_keeps line path)) place)
  | target line base path =>
    exact consistent.samePlace (callTarget_keeps (takeSteps_keeps line path) place)
  | arguments line values => exact consistent.samePlace (generateArguments_keeps line values place)

theorem condition_keeps (statement : String) (tokens : List Token) (line : Nat) :
    Gen.Keeps SamePlace (generateCondition statement (generateTokens tokens line) line) :=
  generateCondition_keeps (generateExpression_keeps line (.wanted none []) tokens)

/-- **A step that begins inside another one** does so in a consistent context. -/
theorem Begins.fits {work next : Work} {place after : Context}
    (begins : Begins work place next after) (fits : work.Fits place) : next.Fits after := by
  have consistent := fits.consistent
  cases begins with
  -- These begin where the step around them does.
  | functions | statement | evaluated | called | tested | repeated | elseBlock | elseTested
  | operand _ | group | accessed | calledValue | lambda | awaitedCall | awaited _ | passStep _
  | takeStep _ | arguments | indexTarget _ _ | memberTarget _ _ | argument =>
    exact ⟨consistent, nofun⟩
  -- These begin behind a statement, or where a block or function is entered.
  | statements | nextFunction => exact ⟨hoist_consistent _ place consistent, nofun⟩
  | nextStatement => exact ⟨generateStatement_consistent _ _ place consistent, nofun⟩
  | parameters => exact ⟨consistent.enterBlock, fun _ _ _ => List.cons_ne_nil _ _⟩
  | nextParameter =>
    obtain ⟨declared, inside⟩ :=
      declareAll_consistent _ [_] consistent (fits.inside _ _ rfl)
    exact ⟨declared, fun _ _ _ => inside⟩
  | body =>
    have inside := List.cons_ne_nil Frame.empty place.scopes.inner
    exact ⟨(declareAll_consistent _ _ consistent.enterBlock inside).1, nofun⟩
  | functionBlock known =>
    exact ⟨(consistent.samePlace (parameterBindings_keeps.of_run known)).enterFunction _, nofun⟩
  | function =>
    rename_i toplevel line name params returns body
    obtain ⟨checked, run, same⟩ := checkReturnType_run returns line place
    have consistent := consistent.samePlace same
    rw [run]
    rcases reachFunction_cases name checked with stays | ⟨binding, present, declares⟩
    · rw [stays]
      exact ⟨consistent, nofun⟩
    · rw [declares]
      exact ⟨consistent.declare_present present, nofun⟩
  -- These begin at the same place, behind other steps.
  | declared passed =>
    have checked := consistent.samePlace (checkVariableType_keeps.of_run passed)
    split
    · exact ⟨checked.samePlace (Context.samePlace_report _ _ _), nofun⟩
    · exact ⟨checked, nofun⟩
  | modified passed =>
    exact ⟨consistent.samePlace (integerTarget_keeps.of_run passed), nofun⟩
  | assigned passed =>
    have checked := consistent.samePlace (integerTarget_keeps.of_run passed)
    exact ⟨checked.samePlace (resolveWith_keeps (takeSteps_keeps _ _ false) _), nofun⟩
  | branch | loop | elseBranch =>
    exact ⟨consistent.samePlace (condition_keeps _ _ _ place), nofun⟩
  | otherwise | elseOtherwise =>
    exact ⟨(consistent.samePlace (condition_keeps _ _ _ place)).samePlace
      (generateBlock_keeps _ _ _ _), nofun⟩
  | returned passed => exact ⟨consistent.samePlace (returnType_keeps.of_run passed), nofun⟩
  | behindOperand _ taken =>
    have same := (afterValue_keeps False.elim (generateValue_keeps _ _)).of_run taken
    exact ⟨consistent.samePlace same, nofun⟩
  | behindOperator taken =>
    exact ⟨consistent.samePlace ((afterOperator_keeps False.elim).of_run taken), nofun⟩
  | walk found => exact ⟨consistent.samePlace (resolveBase_keeps.of_run found), nofun⟩
  | nextStep _ taken =>
    exact ⟨consistent.samePlace ((generateStep_keeps _ _ _).of_run taken), nofun⟩
  | index passed =>
    exact ⟨consistent.samePlace ((Gen.Keeps.ofExcept (Ty.indexed_regular _)).of_run passed), nofun⟩
  | target => exact ⟨consistent.samePlace (generateArguments_keeps _ _ place), nofun⟩
  | nextArgument =>
    exact ⟨consistent.samePlace (generateExpression_keeps _ (.wanted none []) _ place), nofun⟩

/-- **Every step of a script** begins and ends in a consistent context. -/
theorem Reached.fits {load : String → Except Cause Module} {script : List Stmt} {work : Work}
    {place : Context} (loads : ∀ path module, load path = .ok module → module.path = path)
    (reached : Reached load script work place) : work.Fits place := by
  induction reached with
  | start => exact ⟨Context.start_consistent loads, nofun⟩
  | inside _ begins ih => exact begins.fits ih

/-- **Names are kept apart.** Wherever a step begins or ends while a script is compiled, whatever its
imports lead to, there is a frame, no frame declares a name twice, no two imports have the same path
or the same name, and no import has a name that the outermost frame declares. Every import statement
adds one module and reports nothing, or reports one cause and changes nothing else. -/
theorem names_kept_apart (options : Options) (read : String → Except FileFault String)
    (script : List Stmt) :
    (∀ work place, Reached (options.load read) script work place →
      ∀ state ∈ [place, work.run place],
        state.scopes.frames ≠ [] ∧ (∀ frame ∈ state.scopes.frames, frame.names.Nodup) ∧
        (state.imports.map Module.path).Nodup ∧ (state.imports.map Module.name).Nodup ∧
        ∀ module ∈ state.imports, module.name ∉ state.scopes.outermost.names) ∧
    ∀ before toplevel line path, ∃ after,
      generateStatement toplevel (.mk line (.imports path)) before = (none, after) ∧
      ((∃ module, before.load path = .ok module ∧
          after = { before with imports := before.imports ++ [module] }) ∨
        ∃ cause, after = before.report cause line) := by
  constructor
  · intro work place reached state member
    have fits := reached.fits fun path module => Options.load_path
    have consistent : state.Consistent := by
      rcases List.mem_cons.mp member with rfl | behind
      · exact fits.consistent
      · obtain rfl := List.mem_singleton.mp behind
        exact fits.run
    exact ⟨consistent.framed, consistent.frames, consistent.paths, consistent.modules,
      consistent.apart⟩
  · intro before toplevel line path
    rw [generateStatement, generateImport_run]
    refine ⟨_, rfl, ?_⟩
    rcases generateImport_cases path toplevel line before with
      ⟨module, -, loaded, -, -, -, added⟩ | ⟨cause, reported, -⟩
    · exact .inl ⟨module, loaded, added⟩
    · exact .inr ⟨cause, reported⟩

def netFile (_ : String) : Except FileFault String :=
  .ok "\x7b\"module\": \"net\"\x7d\n---\n"

/-- A function whose parameter has the name of a module. -/
def shadowedModule : List Stmt :=
  [.mk 1 (.imports "net"),
    .mk 2 (.function "send" [⟨"net", .any⟩] .any [.mk 3 (.returns none)])]

/-- Inside the function its frame has the name of the module, but the outermost frame has not. -/
theorem names_kept_apart_shadowed :
    ∃ place, Reached (Options.load ⟨"lib", none, true⟩ netFile) shadowedModule
        (.statement false (.mk 3 (.returns none))) place ∧
      place.scopes.frames.map Frame.names = [["net"], ["send"]] ∧
      place.imports.map Module.name = ["net"] ∧
      ∀ module ∈ place.imports, module.name ∉ place.scopes.outermost.names := by
  have outside : Reached (Options.load ⟨"lib", none, true⟩ netFile) shadowedModule
      (.function 2 [⟨"net", .any⟩] .any [_]) _ :=
    (((Reached.start.inside .statements).inside .nextStatement).inside .statement).inside .function
  have inside := (((outside.inside (.functionBlock rfl)).inside .body).inside .statements).inside
    .statement
  refine ⟨_, inside, by decide +kernel, by decide +kernel, ?_⟩
  exact ((names_kept_apart _ _ _).1 _ _ inside _ List.mem_cons_self).2.2.2.2

end TypedScript
