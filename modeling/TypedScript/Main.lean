/-
**The command line.** Files are read before the run is planned, and written after it.
-/

import TypedScript.Command.Run

namespace TypedScript.CommandLine

/-- The fault that an error of the operating system stands for. -/
def faultOf (error : IO.Error) : FileFault :=
  match error with
  | .noFileOrDirectory .. => .notFound
  | .inappropriateType _ code _ => if code = 20 then .notDirectory else .isDirectory
  | other => .other (toString other)

/-- The text of a file. -/
def readText (path : String) : IO (Except FileFault String) := do
  if path.toList.contains (Char.ofNat 0) then return .error .nulInName
  try
    match String.fromUTF8? (← IO.FS.readBinFile path) with
    | some content => return .ok content
    | none => return .error .notText
  catch error => return .error (faultOf error)

/-- The texts of several files. -/
def readTexts : List String → IO (List (String × Except FileFault String))
  | [] => return []
  | path :: rest => do
    let content ← readText path
    let others ← readTexts rest
    return (path, content) :: others

/-- The text of a file among those read. -/
def lookUp (files : List (String × Except FileFault String)) (path : String) :
    Except FileFault String :=
  match files.find? fun file => file.1 == path with
  | some (_, content) => content
  | none => .error .notFound

/-- The environment variables that matter. -/
def environment : IO Environment := do
  return ⟨← IO.getEnv "HOME", ← IO.getEnv "USERPROFILE", ← IO.getEnv "HSC_IMPORTS_DIR"⟩

/-- Ends with a message. -/
def failWith (message : String) : IO UInt32 := do
  (← IO.getStderr).putStr message
  return 1

/-- Carries out a plan. -/
def perform : Plan → IO UInt32
  | .print text => do
    IO.print text
    return 0
  | .fail message => failWith message
  | .write path content => do
    try
      IO.FS.writeFile path content
      return 0
    catch error => failWith (unwritableText path (faultOf error))

/-- Runs the compiler on the files of the operating system. -/
def run (invocation : Invocation) : IO UInt32 := do
  let settings ← environment
  let input ← readText invocation.input
  let imports :=
    match input with
    | .ok source => invocation.importFiles settings source
    | .error _ => []
  let files := (invocation.input, input) :: (← readTexts imports)
  perform (invocation.plan settings (lookUp files))

end TypedScript.CommandLine

open TypedScript in
/-- The entry point. -/
def main (arguments : List String) : IO UInt32 :=
  match Request.ofArguments arguments with
  | .run invocation => CommandLine.run invocation
  | .version => do
    IO.print versionText
    return 0
  | .help => do
    IO.print usageText
    return 0
  | .misuse => do
    (← IO.getStderr).putStr usageText
    return 2
