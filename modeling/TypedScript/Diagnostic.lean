/-
**Diagnostics.** A diagnostic is a cause and the source line it was found on. All wording is here.
-/

import TypedScript.Text.Blank
import TypedScript.Text.Lines

namespace TypedScript

/-- What is wrong with a script. -/
inductive Cause where
  | missingSemicolon
  | unexpectedKeyword (keyword : String)
  | unexpectedToken (token : String)
  | expectedToken (expected : String)
  | unexpectedEnd
  | expectedReturnType
  | invalidParameter (parameter : String)
  | invalidType (type : String)
  | invalidLiteral (message : String)
  | arrowWithoutBlock
  | alreadyDeclared (name : String)
  | constantModified (name : String)
  | nestedImport
  | returnOutsideFunction
  | danglingElse
  | variableNotDeclared (name : String)
  | functionNotDeclared (name : String)
  | unknownModuleMember (module member : String)
  | duplicateImport (path : String)
  | typeMismatch (expected received : String)
  | operatorMismatch (operator left right : String)
  | unaryOperatorMismatch (operator operand : String)
  | argumentCount (expected received : Nat)
  | argumentType (expected received : String)
  | invalidCondition (statement : String)
  | nullDeclaration
  | unknownProperty (property type : String)
  | notCallable (name : String)
  | missingReturnValue (expected : String)
  | missingSeparator (path : String)
  | invalidMetadata (path message : String)
  | importUnreadable (path message : String)
  | duplicateModule (module : String)
  | invalidTypeValue (path value : String)
  | invalidImportName (path field name : String)
  | outputCheck (message : String)
  deriving DecidableEq, Repr

/-- The kinds of causes. -/
inductive Category where
  | syntactic
  | reference
  | typing
  | importing
  | output
  deriving DecidableEq, Repr

/-- How a category is called in messages. -/
def Category.name : Category → String
  | .syntactic => "SyntaxError"
  | .reference => "ReferenceError"
  | .typing => "TypeError"
  | .importing => "ImportError"
  | .output => "OutputCheckError"

namespace Cause

/-- The name of a cause. -/
def name : Cause → String
  | missingSemicolon => "MissingSemicolon"
  | unexpectedKeyword _ => "UnexpectedKeyword"
  | unexpectedToken _ => "UnexpectedToken"
  | expectedToken _ => "ExpectedToken"
  | unexpectedEnd => "UnexpectedEndOfExpression"
  | expectedReturnType => "ExpectedReturnType"
  | invalidParameter _ => "InvalidParameter"
  | invalidType _ => "InvalidType"
  | invalidLiteral _ => "InvalidLiteral"
  | arrowWithoutBlock => "ArrowWithoutBlock"
  | alreadyDeclared _ => "AlreadyDeclared"
  | constantModified _ => "ConstantModified"
  | nestedImport => "NestedImport"
  | returnOutsideFunction => "ReturnOutsideFunction"
  | danglingElse => "DanglingElse"
  | variableNotDeclared _ => "VariableNotDeclared"
  | functionNotDeclared _ => "FunctionNotDeclared"
  | unknownModuleMember _ _ => "UnknownModuleMember"
  | duplicateImport _ => "DuplicateImport"
  | typeMismatch _ _ => "TypeMismatch"
  | operatorMismatch _ _ _ => "OperatorMismatch"
  | unaryOperatorMismatch _ _ => "UnaryOperatorMismatch"
  | argumentCount _ _ => "ArgumentCount"
  | argumentType _ _ => "ArgumentType"
  | invalidCondition _ => "InvalidCondition"
  | nullDeclaration => "NullDeclaration"
  | unknownProperty _ _ => "UnknownProperty"
  | notCallable _ => "NotCallable"
  | missingReturnValue _ => "MissingReturnValue"
  | missingSeparator _ => "MissingSeparator"
  | invalidMetadata _ _ => "InvalidMetadata"
  | importUnreadable _ _ => "ImportUnreadable"
  | duplicateModule _ => "DuplicateModule"
  | invalidTypeValue _ _ => "InvalidTypeValue"
  | invalidImportName _ _ _ => "InvalidImportName"
  | outputCheck _ => "OutputCheck"

/-- The kind of error that a cause is. -/
def category : Cause → Category
  | missingSemicolon | unexpectedKeyword _ | unexpectedToken _ | expectedToken _ | unexpectedEnd
  | expectedReturnType | invalidParameter _ | invalidType _ | invalidLiteral _ | arrowWithoutBlock
  | alreadyDeclared _ | constantModified _ | nestedImport | returnOutsideFunction
  | danglingElse => .syntactic
  | variableNotDeclared _ | functionNotDeclared _ | unknownModuleMember _ _
  | duplicateImport _ => .reference
  | typeMismatch _ _ | operatorMismatch _ _ _ | unaryOperatorMismatch _ _ | argumentCount _ _
  | argumentType _ _ | invalidCondition _ | nullDeclaration | unknownProperty _ _ | notCallable _
  | missingReturnValue _ => .typing
  | missingSeparator _ | invalidMetadata _ _ | importUnreadable _ _ | duplicateModule _
  | invalidTypeValue _ _ | invalidImportName _ _ _ => .importing
  | outputCheck _ => .output

/-- A text between single quotes. -/
def quote (text : String) : String :=
  "'" ++ text ++ "'"

/-- The text of a cause. -/
def message : Cause → String
  | missingSemicolon => "Expected semicolon"
  | unexpectedKeyword keyword => "Unexpected expression " ++ quote keyword
  | unexpectedToken token => "Unexpected token " ++ quote token
  | expectedToken expected => "Expected " ++ quote expected
  | unexpectedEnd => "Unexpected end of expression"
  | expectedReturnType => "Expected return type"
  | invalidParameter parameter => "Invalid parameter " ++ quote parameter
  | invalidType type => "Invalid type " ++ quote type
  | invalidLiteral message => "Invalid literal: " ++ message
  | arrowWithoutBlock => "Arrow functions must have block body"
  | alreadyDeclared name => "Identifier " ++ quote name ++ " already declared in same scope"
  | constantModified name => "Cannot modify constant " ++ quote name
  | nestedImport => "Import statement must be on top level"
  | returnOutsideFunction => "Return statement outside of function"
  | danglingElse => "'else' without a preceding 'if'"
  | variableNotDeclared name => "Variable " ++ quote name ++ " not found"
  | functionNotDeclared name => "Function " ++ quote name ++ " not found"
  | unknownModuleMember module member =>
    "Module " ++ quote module ++ " has no member " ++ quote member
  | duplicateImport path => "Cannot import twice: " ++ quote path
  | typeMismatch expected received =>
    "Type " ++ quote received ++ " does not match " ++ quote expected
  | operatorMismatch operator left right =>
    "Cannot apply " ++ quote operator ++ " to " ++ left ++ " and " ++ right
  | unaryOperatorMismatch operator operand => "Cannot apply " ++ quote operator ++ " to " ++ operand
  | argumentCount expected received =>
    "Expected " ++ toString expected ++ " arguments, got " ++ toString received
  | argumentType expected received => "Expected " ++ quote expected ++ ", got " ++ quote received
  | invalidCondition statement => statement ++ " statement condition must be 'bool'"
  | nullDeclaration => "Cannot use 'null' as declaration type, use 'void' instead"
  | unknownProperty property type => "Cannot find property " ++ quote property ++ " on " ++ type
  | notCallable name => quote name ++ " is not callable"
  | missingReturnValue expected => "Function must return a value of type " ++ quote expected
  | missingSeparator path => "Invalid import format in " ++ quote path ++ " (missing ---)"
  | invalidMetadata path message => "Invalid import JSON in " ++ quote path ++ ": " ++ message
  | importUnreadable path message => "Cannot read " ++ quote path ++ ": " ++ message
  | duplicateModule module => "Module " ++ quote module ++ " is already imported"
  | invalidTypeValue path value => "Invalid type value " ++ quote value ++ " in " ++ quote path
  | invalidImportName path field name =>
    "Invalid " ++ field ++ " " ++ quote name ++ " in " ++ quote path
  | outputCheck message => message

/-- A hint on how to mend the script. -/
def tip? : Cause → Option String
  | missingSemicolon => some "End the statement with `;`"
  | expectedReturnType =>
    some "Functions are declared as `func <type> <name>(...) \x7b ... \x7d`"
  | invalidParameter _ => some "Parameters are written as `<type> <name>`"
  | arrowWithoutBlock => some "Wrap the lambda body in `\x7b ... \x7d`"
  | alreadyDeclared name => some ("Assign to `" ++ name ++ "` without a type to modify it")
  | constantModified name =>
    some ("Declare `" ++ name ++ "` without `const` if it needs to change")
  | nullDeclaration => some "Use `void` or `any` instead"
  | invalidCondition _ => some "Compare the value explicitly, e.g. `x != 0`"
  | missingSeparator _ =>
    some "Separate the JSON header from the code with a line containing only `---`"
  | duplicateImport _ => some "Remove the second import"
  | _ => none

end Cause

/-- A cause and the line it was found on. -/
structure Diagnostic where
  cause : Cause
  line : Nat
  deriving DecidableEq, Repr

namespace Diagnostic

/-- One line of text. -/
def display (diagnostic : Diagnostic) : String :=
  "Line " ++ toString diagnostic.line ++ ": " ++ diagnostic.cause.category.name ++ ": " ++
    diagnostic.cause.message

/-- The first line of a report. -/
def heading (diagnostic : Diagnostic) : String :=
  match diagnostic.cause.tip? with
  | none => "Error: " ++ diagnostic.cause.name ++ "\n"
  | some tip => "Error: " ++ diagnostic.cause.name ++ " (" ++ tip ++ ")\n"

/-- The first line of a report. -/
def summary (diagnostic : Diagnostic) : String :=
  diagnostic.cause.category.name ++ ": " ++ diagnostic.cause.message ++ "\n"

/-- Several lines, with the source line the diagnostic points to. -/
def report (diagnostic : Diagnostic) (source : List Char) (file : String) : String :=
  let number := toString diagnostic.line
  if diagnostic.cause.category = .output then
    diagnostic.heading ++ "-> " ++ file ++ " (generated code, line " ++ number ++ ")\n   = " ++
      diagnostic.summary
  else
    let margin := String.ofList (List.replicate (number.length + 1) ' ')
    let excerpt :=
      match Text.lineAt source diagnostic.line with
      | none => ""
      | some line =>
        let line := Text.trim line
        number ++ " | " ++ String.ofList line ++ "\n" ++ margin ++ "| " ++
          String.ofList (List.replicate (max line.length 1) '^') ++ "\n"
    diagnostic.heading ++ "-> " ++ file ++ "\n" ++ margin ++ "|\n" ++ excerpt ++ margin ++ "= " ++
      diagnostic.summary

end Diagnostic

end TypedScript
