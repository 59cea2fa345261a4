/-
**Running the command line.** A run reads a script and prints its program, writes it to a file, or
reports what is wrong.
-/

import TypedScript.Command.Arguments
import TypedScript.Compile
import TypedScript.Files.Tree
import TypedScript.Options
import TypedScript.Syntax.Outline

namespace TypedScript

/-- What a run does. -/
inductive Plan where
  | print (text : String)
  | write (path content : String)
  | fail (message : String)
  deriving DecidableEq, Repr

/-- All diagnostics of a script and their number. -/
def failureText (diagnostics : List Diagnostic) (source file : String) : String :=
  String.join (diagnostics.map fun diagnostic => diagnostic.report source.toList file ++ "\n") ++
    "Compilation failed with " ++ toString diagnostics.length ++ " error(s)\n"

/-- The message for a file that cannot be read. -/
def unreadableText (path : String) (fault : FileFault) : String :=
  "Cannot read '" ++ path ++ "': " ++ fault.message ++ "\n"

/-- The message for a file that cannot be written. -/
def unwritableText (path : String) (fault : FileFault) : String :=
  "Cannot write '" ++ path ++ "': " ++ fault.message ++ "\n"

namespace Invocation

variable (invocation : Invocation) (environment : Environment)

/-- The options of the environment, changed as the command line says. -/
def options : Options :=
  let standard := Options.ofEnvironment environment
  { standard with
    importsDir := invocation.importsDir.getD standard.importsDir
    checkOutput := !invocation.noCheck }

/-- The file that a run writes. -/
def outputPath : String :=
  invocation.output.getD (Path.withExtension invocation.input "js")

/-- What a run does with the text of its input. -/
def planFor (read : String → Except FileFault String) (source : String) : Plan :=
  let failed (diagnostics : List Diagnostic) := Plan.fail
    (failureText diagnostics source invocation.input)
  let parsed := parse source.toList
  if !parsed.diagnostics.isEmpty then failed parsed.diagnostics
  else if invocation.outline then .print ((outlineScript parsed.statements).pretty ++ "\n")
  else
    let options := invocation.options environment
    let compiled := compile (options.load read) options.checkOutput parsed.statements
    if !compiled.diagnostics.isEmpty then failed compiled.diagnostics
    else if invocation.stdout then .print compiled.code
    else .write invocation.outputPath compiled.code

/-- What a run does, given how files are read. -/
def plan (read : String → Except FileFault String) : Plan :=
  match read invocation.input with
  | .error fault => .fail (unreadableText invocation.input fault)
  | .ok source => invocation.planFor environment read source

end Invocation

/-- The path that a statement imports. -/
def Stmt.importPath? : Stmt → Option String
  | .mk _ (.imports path) => some path
  | _ => none

/-- The files that a run may read besides its input. -/
def Invocation.importFiles (invocation : Invocation) (environment : Environment)
    (source : String) : List String :=
  let options := invocation.options environment
  (parse source.toList).statements.filterMap fun stmt => stmt.importPath?.map options.resolve

/-- What a run leaves behind. -/
structure Outcome where
  exit : Nat
  stdout : String
  stderr : String
  files : FileTree

/-- What the version option prints. -/
def versionText : String := "hsc 0.1.0\n"

/-- The text that tells how the command line is used. -/
def usageText : String :=
  "Usage: hsc [OPTIONS] <INPUT> [OUTPUT]\n\n" ++
    "Options:\n" ++
    "      --imports-dir <DIR>  Directory that relative import paths start from\n" ++
    "      --no-check           Do not check the generated program\n" ++
    "      --ast                Print the outline of the script\n" ++
    "      --stdout             Print the generated program\n" ++
    "  -v, --verbose            Print more about the run\n" ++
    "  -h, --help               Print this text\n" ++
    "  -V, --version            Print the version\n"

/-- Carries out what was planned. -/
def Plan.perform (files : FileTree) : Plan → Outcome
  | .print text => ⟨0, text, "", files⟩
  | .fail message => ⟨1, "", message, files⟩
  | .write path content =>
    match files.write path content with
    | .ok files => ⟨0, "", "", files⟩
    | .error fault => ⟨1, "", unwritableText path fault, files⟩

/-- A run on a file tree. -/
def runCommand (arguments : List String) (environment : Environment) (files : FileTree) : Outcome :=
  match Request.ofArguments arguments with
  | .version => ⟨0, versionText, "", files⟩
  | .help => ⟨0, usageText, "", files⟩
  | .misuse => ⟨2, "", usageText, files⟩
  | .run invocation => (invocation.plan environment files.read).perform files

end TypedScript
