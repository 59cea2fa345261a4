/-
**Generating statements.** Functions are declared before the other statements of their block are
generated, so that they can be called above their own statement. A statement that fails leaves out
its code, and the next one is generated.
-/

import TypedScript.Generation.Awaiting
import TypedScript.Generation.Calls

namespace TypedScript

/-! ### Declarations -/

/-- Declares the functions of a block. -/
def hoist : List Stmt → Gen Unit
  | [] => pure ()
  | .mk line (.function name params returns body) :: rest => do
    if (← Gen.context).isTaken name then Gen.report (.alreadyDeclared name) line
    else
      Gen.change fun context =>
        context.declare ⟨name, .function params returns (awaits body) true, true⟩
    hoist rest
  | _ :: rest => hoist rest

/-- A function is known as a hoisted one up to its statement. -/
def reachFunction (name : String) : Gen Unit :=
  Gen.change fun context =>
    match context.scopes.lookupCurrent? name with
    | some ⟨name, .function params returns async true, constant⟩ =>
      context.declare ⟨name, .function params returns async false, constant⟩
    | _ => context

/-- The declarations of parameters; a type that is not known is reported. -/
def parameterBindings (line : Nat) : List Param → Gen (List Binding)
  | [] => pure []
  | param :: rest => do
    Gen.expect param.type.checkNames line
    let others ← parameterBindings line rest
    return ⟨param.name, .value param.type, false⟩ :: others

/-- The body of a function, with its parameters declared. -/
def functionBody {α : Type} (params : List Param) (returns : Ty) (line : Nat) (body : Gen α) :
    Gen α := do
  let bindings ← parameterBindings line params
  Gen.inFunction returns (Gen.inBlock bindings line body)

/-- The return type of a function has to be known. -/
def checkReturnType (returns : Ty) (line : Nat) : Gen Unit :=
  if returns.isNull then Gen.report .nullDeclaration line
  else Gen.expect returns.checkNames line

/-- The type of a variable has to be known. -/
def checkVariableType (type : Ty) (line : Nat) : Gen Unit :=
  if type.isNull then Gen.fail .nullDeclaration line
  else Gen.ofExcept type.checkNames line

/-- The declaration of a variable. The name is declared even if its value fails. -/
def generateDeclaration (name : String) (type : Ty) (value : Gen Value) (constant : Bool)
    (line : Nat) : Gen Target.Stmt := do
  checkVariableType type line
  let taken := (← Gen.context).isTaken name
  if taken then Gen.report (.alreadyDeclared name) line
  let value? ← value.attempt
  let recorded ←
    match value? with
    | none => pure type
    | some value => do
      Gen.expect (Ty.checkAssignment type value.type) line
      pure (Ty.declared type value.type)
  if !taken then Gen.change fun context => context.declare ⟨name, .value recorded, constant⟩
  match value? with
  | none => Gen.stop
  | some value => return .declare constant name (type.truncate value.code)

/-! ### Modifications -/

/-- The `int` or `uint` that a modification stores, if it stores one. What keeps its value is
refused. -/
def integerTarget (base : String) (steps : List Step) (line : Nat) : Gen (Option Ty) := do
  let context ← Gen.context
  let integer (type? : Option Ty) : Option Ty := type?.filter fun type => type.isInt || type.isUint
  match context.scopes.lookup? base with
  | some binding =>
    match binding.meaning with
    | .function .. => Gen.fail (.constantModified base) line
    | .value type =>
      if steps.isEmpty then
        if binding.constant then Gen.fail (.constantModified base) line
        else return integer (some type)
      else return integer (type.elementAlong? steps)
  | none =>
    if (context.module? base).isSome && steps.isEmpty then
      Gen.fail (.constantModified base) line
    else return none

/-- The type of the value that is stored. -/
def assignedType (op : Operator) (target value : Ty) : Except Cause Ty :=
  match op.compoundBase? with
  | some _ => Ty.applyBinary op target value
  | none => .ok value

/-- An operation on an integer is written out, so that its result is truncated. -/
def assignmentCode (integer : Option Ty) (op : Operator) (target value : Target.Expr) :
    Target.Stmt :=
  match integer, op.compoundBase? with
  | some type, some base =>
    .assign target .assign (type.truncate (.binary base target (.group value)))
  | some type, none => .assign target .assign (type.truncate value)
  | none, _ => .assign target op value

/-- A modification. Both sides are generated even if one of them fails. -/
def generateModification (base : String) (steps : List Step) (op : Operator)
    (target value : Gen Value) (line : Nat) : Gen Target.Stmt := do
  let integer ← integerTarget base steps line
  let target? ← target.attempt
  let value? ← value.attempt
  match target?, value? with
  | some target, some value =>
    let stored ← Gen.ofExcept (assignedType op target.type value.type) line
    Gen.expect (Ty.checkAssignment target.type stored) line
    return assignmentCode integer op target.code value.code
  | _, _ => Gen.stop

/-! ### Other statements -/

/-- A condition. One that fails is replaced by `false`. -/
def generateCondition (statement : String) (condition : Gen Value) (line : Nat) :
    Gen Target.Expr := do
  match ← condition.attempt with
  | none => return .bool false
  | some value =>
    if value.type.category != "boolean" && value.type.category != "any" then
      Gen.report (.invalidCondition statement) line
    return value.code

/-- An import, which only the outermost block may have. -/
def generateImport (path : String) (toplevel : Bool) (line : Nat) : Gen Unit := do
  let context ← Gen.context
  if !toplevel then Gen.report .nestedImport line
  else if context.imports.any fun module => module.path == path then
    Gen.report (.duplicateImport path) line
  else
    match context.load path with
    | .error cause => Gen.report cause line
    | .ok module =>
      if (context.module? module.name).isSome || (context.scopes.lookup? module.name).isSome then
        Gen.report (.duplicateModule module.name) line
      else
        Gen.change fun context => { context with imports := context.imports ++ [module] }

/-- The return type of the function around a place. -/
def returnType (line : Nat) : Gen Ty := do
  match (← Gen.context).returns with
  | [] => Gen.fail .returnOutsideFunction line
  | type :: _ => return type

/-- A return without a value. -/
def generateReturn (line : Nat) : Gen Target.Stmt := do
  let expected ← returnType line
  if !expected.isVoid && !expected.isAny then
    Gen.report (.missingReturnValue expected.text) line
  return .returns none

/-- Returning a value from a function. -/
def generateReturnOf (value : Gen Value) (line : Nat) : Gen Target.Stmt := do
  let expected ← returnType line
  let value ← value
  if expected.isVoid then Gen.report (.typeMismatch expected.text value.type.text) line
  else Gen.expect (Ty.checkAssignment expected value.type) line
  return .returns (some (expected.truncate value.code))

/-! ### The recursion -/

mutual

/-- Code for one operand of an expression. -/
def generateValue (line : Nat) : Token → Gen Value
  | .number value => pure ⟨.number, .number value⟩
  | .text value => pure ⟨.string, .text value⟩
  | .bool value => pure ⟨.boolean, .bool value⟩
  | .null => pure ⟨.any, .null⟩
  | .object literal => pure ⟨.objectOf literal.element, .object literal.value⟩
  | .array literal => pure ⟨.arrayOf literal.element, .array literal.value⟩
  | .operator op => Gen.fail (.unexpectedToken op.spelling) line
  | .group tokens => do
    let value ← generateExpression line (.wanted none []) tokens
    return ⟨value.type, .group value.code⟩
  | .access base steps =>
    resolveWith base steps line fun taken start => generateSteps line false taken start steps
  | .call base steps arguments =>
    generateCall false line (generateArguments line arguments)
      (callTarget base steps line fun beforeLast taken start =>
        generateSteps line beforeLast taken start steps)
  | .lambda params body => do
    let code ← functionBody params .any line (do
      hoist body
      generateStatements false body)
    return ⟨.func, .arrow (awaits body) (params.map Param.name) code⟩
  | .await (.call base steps arguments) => do
    let value ← generateCall true line (generateArguments line arguments)
      (callTarget base steps line fun beforeLast taken start =>
        generateSteps line beforeLast taken start steps)
    return ⟨value.type, .await value.code⟩
  | .await operand => do
    let value ← generateValue line operand
    return ⟨value.type, .await value.code⟩

/-- Code for the rest of an expression. -/
def generateExpression (line : Nat) (before : Operand) : List Token → Gen Value
  | [] => before.atEnd line
  | .operator op :: rest => do
    let next ← before.afterOperator line op
    generateExpression line next rest
  | token :: rest => do
    let next ← before.afterValue line (generateValue line token)
    generateExpression line next rest

/-- Takes one step from a value. -/
def generateStep (line : Nat) (receiver : Value) : Step → Gen Value
  | .property name => accessMember receiver name line
  | .index tokens => accessIndex receiver (generateExpression line (.wanted none []) tokens) line

/-- Code for the steps of an access, the first `taken` of which are done. With `beforeLast` the last
step is left out. -/
def generateSteps (line : Nat) (beforeLast : Bool) (taken : Nat) (receiver : Value) :
    List Step → Gen Value
  | [] => pure receiver
  | step :: rest =>
    if beforeLast && rest.isEmpty then pure receiver
    else
      match taken with
      | taken + 1 => generateSteps line beforeLast taken receiver rest
      | 0 => do
        let next ← generateStep line receiver step
        generateSteps line beforeLast 0 next rest

/-- Code for arguments. All of them are generated; there is no result if one of them fails. -/
def generateArguments (line : Nat) : List (List Token) → Gen (Option (List Value))
  | [] => pure (some [])
  | tokens :: rest => do
    let value? ← (generateExpression line (.wanted none []) tokens).attempt
    let others? ← generateArguments line rest
    match value?, others? with
    | some value, some others => return some (value :: others)
    | _, _ => return none

/-- Code for a statement. An import has no code. -/
def generateStatement (toplevel : Bool) : Stmt → Gen Target.Stmt
  | .mk line kind => generateKind toplevel line kind

/-- Code for what a statement does. -/
def generateKind (toplevel : Bool) (line : Nat) : Kind → Gen Target.Stmt
  | .declare name type value constant =>
    generateDeclaration name type (generateExpression line (.wanted none []) value) constant line
  | .modify base steps op value =>
    generateModification base steps op
      (resolveWith base steps line fun taken start => generateSteps line false taken start steps)
      (generateExpression line (.wanted none []) value) line
  | .expression tokens => do
    let value ← generateExpression line (.wanted none []) tokens
    return .evaluate value.code
  | .call base steps arguments => do
    let value ← generateCall false line (generateArguments line arguments)
      (callTarget base steps line fun beforeLast taken start =>
        generateSteps line beforeLast taken start steps)
    return .evaluate value.code
  | .function name params returns body => do
    checkReturnType returns line
    reachFunction name
    let code ← functionBody params returns line (do
      hoist body
      generateStatements false body)
    return .function (awaits body) name (params.map Param.name) code
  | .branch condition body otherwise => do
    let condition ←
      generateCondition "If" (generateExpression line (.wanted none []) condition) line
    let code ← Gen.inBlock [] line (do
      hoist body
      generateStatements false body)
    let alternative ← generateOtherwise line otherwise
    return .branch condition code alternative
  | .loop condition body => do
    let condition ←
      generateCondition "While" (generateExpression line (.wanted none []) condition) line
    let code ← Gen.inBlock [] line (do
      hoist body
      generateStatements false body)
    return .loop condition code
  | .imports path => do
    generateImport path toplevel line
    Gen.stop
  | .returns none => generateReturn line
  | .returns (some tokens) =>
    generateReturnOf (generateExpression line (.wanted none []) tokens) line

/-- Code for the other side of a branch. -/
def generateOtherwise (line : Nat) : Otherwise → Gen Target.Alternative
  | .nothing => pure .nothing
  | .block body => do
    let code ← Gen.inBlock [] line (do
      hoist body
      generateStatements false body)
    return .block code
  | .elseIf line condition body otherwise => do
    let condition ←
      generateCondition "If" (generateExpression line (.wanted none []) condition) line
    let code ← Gen.inBlock [] line (do
      hoist body
      generateStatements false body)
    let alternative ← generateOtherwise line otherwise
    return .elseIf condition code alternative

/-- Code for statements, without those that fail. -/
def generateStatements (toplevel : Bool) : List Stmt → Gen (List Target.Stmt)
  | [] => pure []
  | stmt :: rest => do
    let code? ← (generateStatement toplevel stmt).attempt
    let others ← generateStatements toplevel rest
    return code?.toList ++ others

end

/-- Code for the statements of one block. -/
def generateLevel (toplevel : Bool) (body : List Stmt) : Gen (List Target.Stmt) := do
  hoist body
  generateStatements toplevel body

/-- Code for a block in which the given names are declared. -/
def generateBlock (body : List Stmt) (bindings : List Binding) (line : Nat) :
    Gen (List Target.Stmt) :=
  Gen.inBlock bindings line (generateLevel false body)

/-- Code for a whole expression. -/
def generateTokens (tokens : List Token) (line : Nat) : Gen Value :=
  generateExpression line (.wanted none []) tokens

end TypedScript
