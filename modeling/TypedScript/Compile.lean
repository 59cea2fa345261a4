/-
**Compiling scripts.** A generated program is an asynchronous function that is called at once. It
defines the imported modules, then the helpers in use, and runs the statements of the script.
-/

import TypedScript.Generation.Statements
import TypedScript.Syntax.Parsing
import TypedScript.Target.Grammar

namespace TypedScript

/-- The program of a script, or all that is wrong with the script. -/
structure Compiled where
  code : String
  diagnostics : List Diagnostic

/-- A constant whose value is what a module exports. -/
def Module.definition (module : Module) : String :=
  let code := String.ofList (Text.trim module.code.toList)
  "const " ++ module.name ++ " = (() => \x7b\n" ++ (if code.isEmpty then "" else code ++ "\n") ++
    "return " ++ module.exports ++ ";\n\x7d)();\n"

/-- The text of a program with the given statements, indented one step unless it is said otherwise. -/
def assemble (imports : List Module) (helpers : List Helper) (body : List Target.Stmt)
    (indent : Nat := 1) : String :=
  "(async () => \x7b\n// Embedded imports\n" ++ String.join (imports.map Module.definition) ++
    Helper.definitions helpers ++ Target.writeLines indent body ++ "\x7d)();\n"

/-- Checks the text of a program. -/
def checkProgram (code : String) : Except Diagnostic Unit :=
  match Target.faultLine? code.toList with
  | none => .ok ()
  | some line => .error ⟨.outputCheck "Unexpected token", line⟩

/-- Compiles statements. -/
def compile (load : String → Except Cause Module) (check : Bool) (statements : List Stmt) :
    Compiled :=
  match generateLevel true statements (.start load) with
  | (body?, context) =>
    if !context.diagnostics.isEmpty then ⟨"", context.diagnostics⟩
    else
      let code := assemble context.imports context.helpers (body?.getD []) context.indent
      match if check then checkProgram code else .ok () with
      | .ok () => ⟨code, []⟩
      | .error diagnostic => ⟨"", [diagnostic]⟩

/-- Parses and compiles a script. Code is generated only if there is nothing to report. -/
def compileSource (load : String → Except Cause Module) (check : Bool) (source : String) :
    Compiled :=
  let parsed := parse source.toList
  if parsed.diagnostics.isEmpty then compile load check parsed.statements
  else ⟨"", parsed.diagnostics⟩

end TypedScript
