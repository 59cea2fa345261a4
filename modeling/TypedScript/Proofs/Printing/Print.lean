/-
**Printing scripts.** The text of a script tree: tokens stand one blank apart, a simple statement ends
with a semicolon and a newline, and every statement of a block stands on a line of its own. Between
the quotes of a string only quotes and backslashes are escaped.

Not every tree has a text. Literals in JSON and lambdas are left out, names are ASCII words that mean
nothing else, and tokens stand as they can be written one after the other. Expressions alone may have
any names that can be read.
-/

import TypedScript.Keyword
import TypedScript.Number.Decimal
import TypedScript.Syntax.Tree

namespace TypedScript

open Text

/-! ### Names and types -/

def isAsciiWord (c : Char) : Bool :=
  isAsciiLetter c || isAsciiDigit c || c == '_'

def isAsciiName (name : String) : Bool :=
  match name.toList with
  | [] => false
  | first :: rest => (isAsciiLetter first || first == '_') && rest.all isAsciiWord

/-- Whether a name is an ASCII identifier that is neither a keyword nor a constant. -/
def isFreeName (name : String) : Bool :=
  isAsciiName name && (Keyword.ofSpelling? name.toList).isNone &&
    !(["true", "false", "null"].contains name)

def isTypeName (name : String) : Bool :=
  isAsciiName name && ((Keyword.ofSpelling? name.toList).isNone || name == "func")

/-- Whether a type is a union. -/
def Ty.isUnion : Ty → Bool
  | .union _ => true
  | .named _ _ => false

mutual

/-- Whether a type can be written: its names are names of types, and a union has several members,
none of them a union. -/
def Ty.isWritable : Ty → Bool
  | .named name params => isTypeName name && typesWritable params
  | .union members => 2 ≤ members.length && membersWritable members

def typesWritable : List Ty → Bool
  | [] => true
  | type :: rest => type.isWritable && typesWritable rest

def membersWritable : List Ty → Bool
  | [] => true
  | type :: rest => !type.isUnion && type.isWritable && membersWritable rest

end

/-! ### Expressions -/

/-- A character between the quotes of a string. -/
def printChar (c : Char) : List Char :=
  if c = '"' || c = '\\' then ['\\', c] else [c]

/-- A text between double quotes. -/
def printQuoted (body : List Char) : List Char :=
  '"' :: (body ++ ['"'])

mutual

def Token.print : Token → List Char
  | .number value => Number.literalStyle.write value
  | .text value => printQuoted (value.toList.flatMap printChar)
  | .bool value => if value then "true".toList else "false".toList
  | .null => "null".toList
  | .access base steps => base.toList ++ printSteps steps
  | .operator op => op.spelling.toList
  | .group tokens => '(' :: (printTokens tokens ++ [')'])
  | .call base steps arguments =>
    base.toList ++ printSteps steps ++ '(' :: (printArguments arguments ++ [')'])
  | .await operand => "await".toList ++ ' ' :: operand.print
  | .object _ => []
  | .array _ => []
  | .lambda _ _ => []

/-- The text of an expression. -/
def printTokens : List Token → List Char
  | [] => []
  | [token] => token.print
  | token :: rest => token.print ++ ' ' :: printTokens rest

/-- The text of the steps of an access. -/
def printSteps : List Step → List Char
  | [] => []
  | .property name :: rest => '.' :: (name.toList ++ printSteps rest)
  | .index tokens :: rest => '[' :: (printTokens tokens ++ ']' :: printSteps rest)

/-- The text of the arguments of a call. -/
def printArguments : List (List Token) → List Char
  | [] => []
  | [argument] => printTokens argument
  | argument :: rest => printTokens argument ++ ',' :: ' ' :: printArguments rest

end

theorem Token.print_number (value : Binary64) :
    (Token.number value).print = Number.literalStyle.write value := rfl

theorem Token.print_access (base : String) (steps : List Step) :
    (Token.access base steps).print = base.toList ++ printSteps steps := rfl

theorem Token.print_await (operand : Token) :
    (Token.await operand).print = "await".toList ++ ' ' :: operand.print := rfl

theorem Token.print_group (tokens : List Token) :
    (Token.group tokens).print = '(' :: (printTokens tokens ++ [')']) := rfl

theorem Token.print_call (base : String) (steps : List Step) (arguments : List (List Token)) :
    (Token.call base steps arguments).print =
      base.toList ++ printSteps steps ++ '(' :: (printArguments arguments ++ [')']) := rfl

/-- Whether a token waits for another one. -/
def Token.isAwait : Token → Bool
  | .await _ => true
  | _ => false

mutual

/-- Whether a token has a text. A number has one if that text denotes it again. -/
def Token.isPrintable : Token → Bool
  | .number value => Decimal.ofPlain? (Number.literalStyle.write value) == some value
  | .text _ => true
  | .bool _ => true
  | .null => true
  | .access base steps => isFreeName base && stepsPrintable steps
  | .operator op => !op.isAssignment
  | .group tokens => tokensPrintable tokens
  | .call base steps arguments =>
    isFreeName base && stepsPrintable steps && argumentsPrintable arguments
  | .await operand => operand.isValue && !operand.isAwait && operand.isPrintable
  | .object _ => false
  | .array _ => false
  | .lambda _ _ => false

/-- Whether tokens have a text: no two values stand side by side, and the last one is a value. -/
def tokensPrintable : List Token → Bool
  | [] => false
  | [token] => token.isValue && token.isPrintable
  | token :: rest =>
    !(token.isValue && rest.head?.any Token.isValue) && token.isPrintable && tokensPrintable rest

def stepsPrintable : List Step → Bool
  | [] => true
  | .property name :: rest => isFreeName name && stepsPrintable rest
  | .index tokens :: rest => tokensPrintable tokens && stepsPrintable rest

def argumentsPrintable : List (List Token) → Bool
  | [] => true
  | argument :: rest => tokensPrintable argument && argumentsPrintable rest

end

/-- Whether a name stands for something else where it stands alone. -/
def isReserved (name : String) : Bool :=
  (Keyword.ofSpelling? name.toList).isSome || ["true", "false", "null"].contains name

mutual

/-- Whether a token can be read back. Names may be of any letters. Those of members need not be
identifiers, and a reserved one is only taken for something else if it is a whole token. -/
def Token.isSpellable : Token → Bool
  | .number value => Decimal.ofPlain? (Number.literalStyle.write value) == some value
  | .text _ => true
  | .bool _ => true
  | .null => true
  | .access base steps =>
    isIdentifier base.toList && !(steps.isEmpty && isReserved base) && stepsSpellable steps
  | .operator op => !op.isAssignment
  | .group tokens => tokensSpellable tokens
  | .call base steps arguments =>
    isIdentifier base.toList && stepsSpellable steps && argumentsSpellable arguments
  | .await operand => operand.isValue && !operand.isAwait && operand.isSpellable
  | .object _ => false
  | .array _ => false
  | .lambda _ _ => false

/-- The expressions that can be read back. -/
def tokensSpellable : List Token → Bool
  | [] => false
  | [token] => token.isValue && token.isSpellable
  | token :: rest =>
    !(token.isValue && rest.head?.any Token.isValue) && token.isSpellable && tokensSpellable rest

def stepsSpellable : List Step → Bool
  | [] => true
  | .property name :: rest =>
    !name.toList.isEmpty && name.toList.all isWordChar && stepsSpellable rest
  | .index tokens :: rest => tokensSpellable tokens && stepsSpellable rest

def argumentsSpellable : List (List Token) → Bool
  | [] => true
  | argument :: rest => tokensSpellable argument && argumentsSpellable rest

end

/-! ### Statements -/

def Param.print (param : Param) : List Char :=
  param.type.text.toList ++ ' ' :: param.name.toList

/-- The text of a parameter list. -/
def printParams : List Param → List Char
  | [] => []
  | [param] => param.print
  | param :: rest => param.print ++ ',' :: ' ' :: printParams rest

def inBraces (lines : List Char) : List Char :=
  '\x7b' :: '\n' :: (lines ++ ['\x7d'])

def introduced (keyword : Keyword) (text : List Char) : List Char :=
  keyword.spelling.toList ++ ' ' :: text

def assigned (left : List Char) (op : Operator) (value : List Char) : List Char :=
  left ++ ' ' :: (op.spelling.toList ++ ' ' :: value)

def declaration (name : String) (type : Ty) (value : List Token) : List Char :=
  assigned (type.text.toList ++ ' ' :: name.toList) .assign (printTokens value)

def functionHeader (name : String) (params : List Param) (returns : Ty) : List Char :=
  introduced .function (returns.text.toList ++ ' ' :: (name.toList ++ '(' ::
    (printParams params ++ [')', ' '])))

/-- The text of a branch or a loop up to its body. -/
def conditionHeader (keyword : Keyword) (condition : List Token) : List Char :=
  introduced keyword ('(' :: (printTokens condition ++ [')', ' ']))

mutual

/-- The text of a statement up to its end; of a branch, only its first side. -/
def Kind.command : Kind → List Char
  | .declare name type value constant =>
    if constant then introduced .constant (declaration name type value)
    else declaration name type value
  | .modify base steps op value => assigned (base.toList ++ printSteps steps) op (printTokens value)
  | .expression tokens => printTokens tokens
  | .function name params returns body =>
    functionHeader name params returns ++ inBraces (printBody body)
  | .branch condition body _ => conditionHeader .ifThen condition ++ inBraces (printBody body)
  | .loop condition body => conditionHeader .loop condition ++ inBraces (printBody body)
  | .call base steps arguments => (Token.call base steps arguments).print
  | .imports path => introduced .imports (printQuoted path.toList)
  | .returns none => Keyword.returns.spelling.toList
  | .returns (some tokens) => introduced .returns (printTokens tokens)

/-- What ends a statement. -/
def Kind.ending : Kind → List Char
  | .function .. => ['\n']
  | .branch _ _ otherwise => otherwise.print ++ ['\n']
  | .loop _ _ => ['\n']
  | _ => [';', '\n']

/-- The text of the other side of a branch. -/
def Otherwise.print : Otherwise → List Char
  | .nothing => []
  | .block body => ' ' :: introduced .otherwise (inBraces (printBody body))
  | .elseIf _ condition body otherwise =>
    ' ' :: introduced .otherwise (conditionHeader .ifThen condition ++ inBraces (printBody body)) ++
      otherwise.print

/-- The text of several statements. -/
def printBody : List Stmt → List Char
  | [] => []
  | .mk _ kind :: rest => kind.command ++ kind.ending ++ printBody rest

end

/-- Whether an expression is a single call, which is a statement of its own kind. -/
def isSingleCall : List Token → Bool
  | [.call _ _ _] => true
  | _ => false

def Param.isPrintable (param : Param) : Bool :=
  isFreeName param.name && param.type.isWritable

mutual

/-- Whether a statement has a text. -/
def Kind.isPrintable : Kind → Bool
  | .declare name type value _ => isFreeName name && type.isWritable && tokensPrintable value
  | .modify base steps op value =>
    isFreeName base && stepsPrintable steps && op.isAssignment && tokensPrintable value
  | .expression tokens => tokensPrintable tokens && !isSingleCall tokens
  | .function name params returns body =>
    isFreeName name && params.all Param.isPrintable && returns.isWritable && bodyPrintable body
  | .branch condition body otherwise =>
    tokensPrintable condition && bodyPrintable body && otherwise.isPrintable
  | .loop condition body => tokensPrintable condition && bodyPrintable body
  | .call base steps arguments => (Token.call base steps arguments).isPrintable
  | .imports path => path.toList.all fun c => c != '"' && c != '\\'
  | .returns none => true
  | .returns (some tokens) => tokensPrintable tokens

def Otherwise.isPrintable : Otherwise → Bool
  | .nothing => true
  | .block body => bodyPrintable body
  | .elseIf _ condition body otherwise =>
    tokensPrintable condition && bodyPrintable body && otherwise.isPrintable

/-- Whether every statement has a text. -/
def bodyPrintable : List Stmt → Bool
  | [] => true
  | .mk _ kind :: rest => kind.isPrintable && bodyPrintable rest

end

/-! ### Lines -/

mutual

/-- A statement without the lines of the statements in it. -/
def Kind.unlined : Kind → Kind
  | .function name params returns body => .function name params returns (unlinedBody body)
  | .branch condition body otherwise => .branch condition (unlinedBody body) otherwise.unlined
  | .loop condition body => .loop condition (unlinedBody body)
  | kind => kind

def Otherwise.unlined : Otherwise → Otherwise
  | .nothing => .nothing
  | .block body => .block (unlinedBody body)
  | .elseIf _ condition body otherwise =>
    .elseIf 0 condition (unlinedBody body) otherwise.unlined

/-- Statements without the lines they start on. -/
def unlinedBody : List Stmt → List Stmt
  | [] => []
  | .mk _ kind :: rest => .mk 0 kind.unlined :: unlinedBody rest

end

end TypedScript
