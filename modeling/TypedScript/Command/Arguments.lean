/-
**Arguments of the command line.** Arguments are read from left to right. The first one that cannot
be understood decides, and so does one that asks for the version or for help.
-/

namespace TypedScript

/-- What the command line says about a run. -/
structure Invocation where
  input : String
  output : Option String
  importsDir : Option String
  noCheck : Bool
  /-- Whether the outline of the script is printed in place of compiling it. -/
  outline : Bool
  stdout : Bool
  verbosity : Nat
  deriving DecidableEq, Repr

/-- What the command line asks for. -/
inductive Request where
  | run (invocation : Invocation)
  | version
  | help
  | misuse
  deriving DecidableEq, Repr

/-- The arguments read so far. -/
structure Arguments where
  /-- The arguments that are no options. -/
  files : List String
  importsDir : Option String
  noCheck : Bool
  outline : Bool
  stdout : Bool
  verbosity : Nat

namespace Arguments

/-- No arguments. -/
def empty : Arguments :=
  ⟨[], none, false, false, false, 0⟩

/-- Takes an argument that is no option: the input or the output. -/
def addFile (arguments : Arguments) (file : String) : Option Arguments :=
  if file.isEmpty || arguments.files.length ≥ 2 then none
  else some { arguments with files := arguments.files ++ [file] }

/-- Takes the directory of imports, which may be given once. -/
def setImportsDir (arguments : Arguments) (directory : String) : Option Arguments :=
  if directory.isEmpty || arguments.importsDir.isSome then none
  else some { arguments with importsDir := some directory }

/-- Takes a flag in its long form. Only `--verbose` may be repeated. -/
def setFlag (arguments : Arguments) (flag : String) : Option Arguments :=
  if flag = "--no-check" then
    if arguments.noCheck then none else some { arguments with noCheck := true }
  else if flag = "--ast" then
    if arguments.outline then none else some { arguments with outline := true }
  else if flag = "--stdout" then
    if arguments.stdout then none else some { arguments with stdout := true }
  else if flag = "--verbose" then some { arguments with verbosity := arguments.verbosity + 1 }
  else none

/-- What arguments ask for that have all been read. -/
def finish (arguments : Arguments) : Request :=
  match arguments.files with
  | [] => .misuse
  | input :: others =>
    .run ⟨input, others.head?, arguments.importsDir, arguments.noCheck, arguments.outline,
      arguments.stdout, arguments.verbosity⟩

/-- Reads the letters of an argument with a single hyphen. -/
def letters (arguments : Arguments) : List Char → Except Request Arguments
  | [] => .ok arguments
  | c :: rest =>
    if c = 'v' then letters { arguments with verbosity := arguments.verbosity + 1 } rest
    else if c = 'V' then .error .version
    else if c = 'h' then .error .help
    else .error .misuse

/-- Takes all further arguments as files. -/
def readFiles (arguments : Arguments) : List String → Request
  | [] => arguments.finish
  | file :: rest =>
    match arguments.addFile file with
    | none => .misuse
    | some arguments => readFiles arguments rest

/-- Whether an argument has the form of an option. A single hyphen is a file. -/
def isOption (argument : String) : Bool :=
  match argument.toList with
  | ['-'] => false
  | '-' :: _ => true
  | _ => false

/-- The option that takes a value. -/
def importsOption : String := "--imports-dir"

/-- The value of an option that is written behind `=`. -/
def inlineValue? (option argument : String) : Option String :=
  let start := option.toList ++ ['=']
  if start.isPrefixOf argument.toList then
    some (String.ofList (argument.toList.drop start.length))
  else none

/-- Reads an argument in the form of an option that takes no separate value. -/
def readOption (arguments : Arguments) (argument : String) : Except Request Arguments :=
  let known : Option Arguments → Except Request Arguments
    | some arguments => .ok arguments
    | none => .error .misuse
  match inlineValue? importsOption argument with
  | some directory => known (arguments.setImportsDir directory)
  | none =>
    if argument = "--version" then .error .version
    else if argument = "--help" then .error .help
    else
      match argument.toList with
      | '-' :: '-' :: _ => known (arguments.setFlag argument)
      | _ => arguments.letters (argument.toList.drop 1)

/-- Reads the arguments one by one. -/
def read (arguments : Arguments) : List String → Request
  | [] => arguments.finish
  | argument :: rest =>
    if argument = "--" then arguments.readFiles rest
    else if argument = importsOption then
      match rest with
      | [] => .misuse
      | directory :: rest =>
        if isOption directory then .misuse
        else
          match arguments.setImportsDir directory with
          | none => .misuse
          | some arguments => read arguments rest
    else if isOption argument then
      match arguments.readOption argument with
      | .error request => request
      | .ok arguments => read arguments rest
    else
      match arguments.addFile argument with
      | none => .misuse
      | some arguments => read arguments rest

end Arguments

/-- What the command line asks for. -/
def Request.ofArguments (arguments : List String) : Request :=
  Arguments.empty.read arguments

end TypedScript
