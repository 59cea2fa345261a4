/-
**Options.** Import paths are looked up in the directory of imports, or in the home directory if
they start with `~/`.
-/

import TypedScript.Files.Fault
import TypedScript.Files.Path
import TypedScript.Imports.Module

namespace TypedScript

/-- The environment variables that matter. -/
structure Environment where
  home : Option String
  userProfile : Option String
  importsDir : Option String
  deriving DecidableEq, Repr

/-- How scripts are compiled. -/
structure Options where
  /-- The directory that relative import paths start from. -/
  importsDir : String
  /-- What `~/` at the start of an import path stands for. -/
  homeDir : Option String
  /-- Whether the generated program is checked. -/
  checkOutput : Bool
  deriving DecidableEq, Repr

namespace Options

/-- The options that environment variables give. -/
def ofEnvironment (environment : Environment) : Options :=
  let home? := environment.home <|> environment.userProfile
  let standard := Path.join (Path.join (home?.getD "") "huopascript") "imports"
  ⟨environment.importsDir.getD standard, home?, true⟩

/-- The file that an import path leads to. -/
def resolve (options : Options) (path : String) : String :=
  match path.toList, options.homeDir with
  | '~' :: '/' :: rest, some home => Path.join home (String.ofList rest)
  | _, _ => Path.join options.importsDir path

/-- The module that an import path leads to. -/
def load (options : Options) (read : String → Except FileFault String) (path : String) :
    Except Cause Module :=
  match read (options.resolve path) with
  | .error fault => .error (.importUnreadable path fault.message)
  | .ok text => Module.parse path text.toList

end Options

end TypedScript
