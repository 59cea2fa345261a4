/-
**Names that a program binds.** Inside its wrapper a program binds the names of its imports, those of
the helpers it uses, and what the outermost statements of the script declare. Imports and
declarations are kept apart from each other, but nothing keeps them apart from the helpers.
-/

import TypedScript.Proofs.Scoping.Consistency

namespace TypedScript

open Context (SamePlace)

variable {name : String} {imports : List Module} {helpers : List Helper} {body : List Target.Stmt}
  {kind : Kind} {binding : Binding} {last : Context}

/-! ### Parts of a program -/

/-- The name that a statement binds in its block. -/
def Target.Stmt.binds? (stmt : Target.Stmt) : Option String :=
  stmt.function? <|> stmt.declares?

/-- A part of a program, and the name it binds. -/
structure ProgramPart where
  binds? : Option String
  text : String

/-- The parts of a program inside its wrapper, each with the name that it binds. -/
def programParts (imports : List Module) (helpers : List Helper) (body : List Target.Stmt) :
    List ProgramPart :=
  imports.map (fun module => ⟨some module.name, module.definition⟩) ++
  (Helper.all.filter helpers.contains).map
    (fun helper => ⟨some helper.name, helper.definition ++ "\n"⟩) ++
  body.map fun stmt => ⟨stmt.binds?, Target.padding 1 ++ stmt.write 1 ++ "\n"⟩

/-- The names that a program binds inside its wrapper. -/
def boundNames (imports : List Module) (helpers : List Helper) (body : List Target.Stmt) :
    List String :=
  (programParts imports helpers body).filterMap ProgramPart.binds?

/-- How a part starts that binds a name, up to the name. -/
def bindingWords : List String :=
  ["const ", "    const ", "    let ", "    function ", "    async function "]

/-- A text that starts with a definition. -/
def Defines (text name : String) : Prop :=
  ∃ word ∈ bindingWords, ∃ mark ∈ [" = ", "("], ∃ rest, text = word ++ name ++ mark ++ rest

theorem assemble_eq_join (imports : List Module) (helpers : List Helper)
    (body : List Target.Stmt) :
    assemble imports helpers body = "(async () => \x7b\n// Embedded imports\n" ++
      String.join ((programParts imports helpers body).map ProgramPart.text) ++ "\x7d)();\n" := by
  unfold assemble programParts Helper.definitions
  rw [writeLines_eq_join]
  simp [String.join_append, Function.comp_def, String.append_assoc]

theorem Helper.defines (helper : Helper) : Defines (helper.definition ++ "\n") helper.name := by
  refine ⟨"const ", by decide, " = ", by decide, ?_⟩
  cases helper
  · exact ⟨"(s) => Number(s);\n", by decide⟩
  · exact ⟨"(o) => Object.keys(o);\n", by decide⟩
  · exact ⟨"(o) => Object.values(o);\n", by decide⟩
  · exact ⟨"(o) => Object.entries(o);\n", by decide⟩

theorem Module.defines (module : Module) : Defines module.definition module.name := by
  refine ⟨"const ", by decide, " = ", by decide, ?_⟩
  unfold Module.definition
  rw [show " = (() => \x7b\n" = " = " ++ "(() => \x7b\n" by decide]
  simp only [String.append_assoc]
  exact ⟨_, rfl⟩

theorem defines_line {word mark : String} (first : Target.padding 1 ++ word ∈ bindingWords)
    (name : String) (behind : mark ∈ [" = ", "("]) (rest : String) :
    Defines (Target.padding 1 ++ (word ++ name ++ mark ++ rest) ++ "\n") name :=
  ⟨_, first, mark, behind, rest ++ "\n", by simp only [String.append_assoc]⟩

theorem Target.Stmt.defines {stmt : Target.Stmt} (binds : stmt.binds? = some name) :
    Defines (Target.padding 1 ++ stmt.write 1 ++ "\n") name := by
  cases stmt with
  | declare constant declared value =>
    obtain rfl := Option.some.inj binds
    have first : Target.padding 1 ++ (if constant then "const " else "let ") ∈ bindingWords := by
      cases constant <;> decide
    have behind : " = " ∈ [" = ", "("] := by decide
    have line := defines_line first declared behind (value.write 1 ++ ";")
    rw [Target.Stmt.write]
    simpa only [String.append_assoc] using line
  | function async declared params body =>
    obtain rfl := Option.some.inj binds
    have first : Target.padding 1 ++ (Target.asyncMark async ++ "function ") ∈ bindingWords := by
      cases async <;> decide
    have behind : "(" ∈ [" = ", "("] := by decide
    have line := defines_line first declared behind
      (String.intercalate ", " params ++ ") " ++ Target.braced 1 (Target.writeLines 2 body))
    rw [Target.Stmt.write]
    simpa only [String.append_assoc] using line
  | _ => contradiction

theorem programParts_define {part : ProgramPart}
    (member : part ∈ programParts imports helpers body) (binds : part.binds? = some name) :
    Defines part.text name := by
  unfold programParts at member
  rw [List.mem_append, List.mem_append, List.mem_map, List.mem_map, List.mem_map] at member
  obtain (⟨module, -, rfl⟩ | ⟨helper, -, rfl⟩) | ⟨stmt, -, rfl⟩ := member
  · obtain rfl := Option.some.inj binds
    exact module.defines
  · obtain rfl := Option.some.inj binds
    exact helper.defines
  · exact Target.Stmt.defines binds

theorem boundNames_eq (imports : List Module) (helpers : List Helper) (body : List Target.Stmt) :
    boundNames imports helpers body = imports.map Module.name ++
      (Helper.all.filter helpers.contains).map Helper.name ++
      body.filterMap Target.Stmt.binds? := by
  unfold boundNames programParts
  simp [List.filterMap_append, List.filterMap_map]

theorem binds_perm (body : List Target.Stmt) :
    (body.filterMap Target.Stmt.binds?).Perm
      (Target.declaredFunctions body ++ Target.declaredVariables body) := by
  unfold Target.declaredFunctions Target.declaredVariables
  induction body with
  | nil => exact .nil
  | cons stmt rest ih =>
    cases stmt with
    | declare constant name value => exact (ih.cons name).trans List.perm_middle.symm
    | function async name params inner => exact ih.cons name
    | _ => exact ih

/-! ### Names of a run -/

def variableNames (block : List Stmt) : List String :=
  block.filterMap fun stmt => stmt.kind.variable?

theorem variableNames_cons (stmt : Stmt) (rest : List Stmt) :
    variableNames (stmt :: rest) = stmt.kind.variable?.toList ++ variableNames rest := by
  unfold variableNames
  rw [List.filterMap_cons]
  cases stmt.kind.variable? <;> rfl

theorem KindCode.variable? {code : Target.Stmt} (emitted : KindCode kind code) :
    code.declares? = kind.variable? := by
  cases emitted with
  | modify taken inner =>
    unfold assignmentCode
    split <;> rfl
  | _ => rfl

namespace Context

/-- The names that the innermost frame gets, if nothing is reported. -/
structure Grows (before after : Context) (names : List String) : Prop where
  diagnostics : before.diagnostics <+: after.diagnostics
  level : after.scopes.inner = [] ↔ before.scopes.inner = []
  current : after.diagnostics = before.diagnostics →
    after.scopes.current.names = before.scopes.current.names ++ names

namespace Grows

variable {before between after : Context} {names : List String}

theorem trans {others : List String} (first : before.Grows between names)
    (second : between.Grows after others) : before.Grows after (names ++ others) where
  diagnostics := first.diagnostics.trans second.diagnostics
  level := second.level.trans first.level
  current quiet := by
    have same := quiet_between first.diagnostics second.diagnostics quiet
    rw [second.current (quiet.trans same.symm), first.current same, List.append_assoc]

theorem samePlace (same : SamePlace before after) : before.Grows after [] where
  diagnostics := same.diagnostics
  level := by rw [same.scopes]
  current _ := by rw [same.scopes, List.append_nil]

theorem reported (same : SamePlace before after) (loud : after.diagnostics ≠ before.diagnostics) :
    before.Grows after names where
  diagnostics := same.diagnostics
  level := by rw [same.scopes]
  current quiet := absurd quiet loud

theorem declare_free (free : before.isTaken binding.name = false) :
    before.Grows (before.declare binding) [binding.name] where
  diagnostics := List.prefix_rfl
  level := Scopes.inner_put
  current _ := by
    show (before.scopes.put binding).current.names = _
    rw [Scopes.current_put, Frame.names_put, if_neg (isTaken_eq_false_iff.mp free).1]

theorem declare_present (present : binding.name ∈ before.scopes.current.names) :
    before.Grows (before.declare binding) [] where
  diagnostics := List.prefix_rfl
  level := Scopes.inner_put
  current _ := by
    show (before.scopes.put binding).current.names = _
    rw [Scopes.current_put, Frame.names_put, if_pos present, List.append_nil]

end Grows

end Context

theorem Kind.Moves.grows {before after : Context} (moves : kind.Moves before after) :
    before.Grows after kind.variable?.toList := by
  cases moves with
  | stays plain same =>
    rw [plain]
    exact .samePlace same
  | refused same loud => exact .reported same loud
  | declares free same => exact (Context.Grows.declare_free free).trans (.samePlace same)
  | reaches present same => exact (Context.Grows.declare_present present).trans (.samePlace same)
  | imports => exact ⟨List.prefix_rfl, Iff.rfl, fun _ => (List.append_nil _).symm⟩

theorem hoist_grows (block : List Stmt) (before : Context) :
    before.Grows (hoist block before).2 (hoistedNames block) := by
  induction block generalizing before with
  | nil => exact .samePlace (refl before)
  | cons stmt rest ih =>
    rw [hoistedNames_cons]
    rcases hoist_cons_cases stmt rest before with
      ⟨other, run⟩ | ⟨cause, line, run⟩ | ⟨binding, named, free, run⟩
    · rw [run, other]
      exact ih before
    · rw [run]
      exact .trans (.reported (before.samePlace_report cause line)
        (Context.reported_not_quiet List.prefix_rfl)) (ih _)
    · rw [run, named]
      exact (Context.Grows.declare_free free).trans (ih _)

theorem generateStatements_cons (toplevel : Bool) (stmt : Stmt) (rest : List Stmt)
    (before : Context) :
    (generateStatements toplevel (stmt :: rest) before).2 =
      (generateStatements toplevel rest (generateStatement toplevel stmt before).2).2 := by
  rw [generateStatements]
  simp only [bind, Gen.andThen, Gen.attempt]
  rcases generateStatements toplevel rest (generateStatement toplevel stmt before).2 with
    ⟨_ | others, last⟩ <;> rfl

/-- A run adds the variables of its statements, one after the other. -/
theorem generateStatements_grows (toplevel : Bool) (block : List Stmt) (before : Context) :
    before.Grows (generateStatements toplevel block before).2 (variableNames block) := by
  induction block generalizing before with
  | nil =>
    rw [generateStatements]
    exact .samePlace (refl before)
  | cons stmt rest ih =>
    obtain ⟨line, kind⟩ := stmt
    rw [variableNames_cons, generateStatements_cons, generateStatement]
    exact (generateKind_moves toplevel line kind before).grows.trans (ih _)

/-! ### Names of a program -/

/-- **The outermost frame of an accepted script** has the names that its program declares. -/
theorem outermost_names {load : String → Except Cause Module} {script : List Stmt}
    (run : generateLevel true script (.start load) = (some body, last))
    (quiet : last.diagnostics = []) (emitted : BlockCode script body) :
    last.scopes.outermost.names =
      Target.declaredFunctions body ++ Target.declaredVariables body := by
  obtain ⟨_, inside, hoists, rest⟩ := Gen.bind_eq_some run
  have entered := hoist_grows script (.start load)
  rw [hoists] at entered
  have passed := generateStatements_grows true script inside
  rw [rest] at passed
  have grown := entered.trans passed
  have only : last.scopes.inner = [] := grown.level.mpr rfl
  have names := grown.current quiet
  rw [Scopes.current, only] at names
  have declared : Target.declaredVariables body = variableNames script :=
    emitted.filterMap_eq KindCode.variable? fun _ => rfl
  rw [emitted.declaredFunctions, declared]
  exact names

theorem Helper.nodup_names (helpers : List Helper) :
    ((Helper.all.filter helpers.contains).map Helper.name).Nodup := by
  have all : (Helper.all.map Helper.name).Nodup := by decide
  exact all.sublist (List.filter_sublist.map Helper.name)

theorem Helper.mem_names :
    name ∈ (Helper.all.filter helpers.contains).map Helper.name ↔
      ∃ helper ∈ helpers, helper.name = name := by
  rw [List.mem_map]
  refine exists_congr fun helper => and_congr_left fun _ => ?_
  rw [List.mem_filter, List.contains_iff_mem]
  exact and_iff_right (by cases helper <;> decide)

theorem Context.Consistent.nodup_declared (consistent : last.Consistent) {declared : List String}
    (same : declared.Perm last.scopes.outermost.names) :
    (last.imports.map Module.name ++ declared).Nodup := by
  refine List.nodup_append.mpr ⟨consistent.modules, ?_, ?_⟩
  · exact same.nodup_iff.mpr (consistent.frames _ last.scopes.outermost_mem)
  · rintro name imported other bound rfl
    obtain ⟨module, member, rfl⟩ := List.mem_map.mp imported
    exact consistent.apart module member (same.mem_iff.mp bound)

theorem nodup_boundNames_iff
    (others : (imports.map Module.name ++ body.filterMap Target.Stmt.binds?).Nodup) :
    (boundNames imports helpers body).Nodup ↔
      ∀ helper ∈ helpers, helper.name ∉ imports.map Module.name ∧
        helper.name ∉ body.filterMap Target.Stmt.binds? := by
  rw [boundNames_eq, List.append_assoc, (List.perm_append_comm_assoc _ _ _).nodup_iff,
    List.nodup_append]
  constructor
  · rintro ⟨-, -, apart⟩ helper used
    have bound := Helper.mem_names.mpr ⟨helper, used, rfl⟩
    refine ⟨fun imported => ?_, fun declared => ?_⟩
    · exact apart _ bound _ (List.mem_append_left _ imported) rfl
    · exact apart _ bound _ (List.mem_append_right _ declared) rfl
  · intro apart
    refine ⟨Helper.nodup_names helpers, others, ?_⟩
    rintro name bound other member rfl
    obtain ⟨helper, used, rfl⟩ := Helper.mem_names.mp bound
    exact (List.mem_append.mp member).elim (apart helper used).1 (apart helper used).2

/-- **Names are bound once, but for helpers.** The program of a script that is accepted, whatever its
imports are, consists of parts inside its wrapper: a definition for each import, one for each helper
in use, and the outermost statements. Each part that binds a name there starts with a definition of
it. Imports and declarations have different names. So a name is bound twice exactly if it is that of
a helper in use and of an import or a declaration too. -/
theorem bound_once_iff {options : Options} {read : String → Except FileFault String} {check : Bool}
    {script : List Stmt}
    (accepted : (compile (options.load read) check script).diagnostics = []) :
    ∃ body last, generateLevel true script (.start (options.load read)) = (some body, last) ∧
      (compile (options.load read) check script).code =
        "(async () => \x7b\n// Embedded imports\n" ++ String.join
          ((programParts last.imports last.helpers body).map ProgramPart.text) ++ "\x7d)();\n" ∧
      (∀ part ∈ programParts last.imports last.helpers body, ∀ name ∈ part.binds?,
        Defines part.text name) ∧
      (last.imports.map Module.name ++ body.filterMap Target.Stmt.binds?).Nodup ∧
      ((boundNames last.imports last.helpers body).Nodup ↔
        ∀ helper ∈ last.helpers, helper.name ∉ last.imports.map Module.name ∧
          helper.name ∉ body.filterMap Target.Stmt.binds?) := by
  obtain ⟨_, body, last, _, -, run, -, quiet, -, made, code⟩ := compile_made accepted
  have consistent : last.Consistent := by
    have stays := generateLevel_consistent true script (.start (options.load read))
    rw [run] at stays
    exact stays (Context.start_consistent fun _ _ => Options.load_path)
  have names : (body.filterMap Target.Stmt.binds?).Perm last.scopes.outermost.names := by
    rw [outermost_names run quiet made.code]
    exact binds_perm body
  have others := consistent.nodup_declared names
  refine ⟨body, last, run, ?_, fun part member name binds => programParts_define member binds,
    others, nodup_boundNames_iff others⟩
  rw [code, assemble_eq_join]

/-- An import, a helper and a variable, each bound once. -/
theorem bound_once_iff_converting :
    let load := Options.load ⟨"lib", none, true⟩ fun _ => .ok "\x7b\"module\": \"net\"\x7d\n---\n"
    let script := [Stmt.mk 1 (.imports "net"), .mk 2 (.declare "s" .string [.text "1"] false),
      .mk 3 (.call "s" [.property "toNumber"] [])]
    (compile load false script).diagnostics = [] ∧
      ∃ body last, generateLevel true script (.start load) = (some body, last) ∧
        boundNames last.imports last.helpers body = ["net", "__hsc_toNumber", "s"] ∧
        ∀ helper ∈ last.helpers, helper.name ∉ last.imports.map Module.name ∧
          helper.name ∉ body.filterMap Target.Stmt.binds? := by
  intro load script
  have accepted : (compile load false script).diagnostics = [] := by decide +kernel
  have names : boundNames (generateLevel true script (.start load)).2.imports
      (generateLevel true script (.start load)).2.helpers
      ((generateLevel true script (.start load)).1.getD []) = ["net", "__hsc_toNumber", "s"] := by
    decide +kernel
  have distinct : ["net", "__hsc_toNumber", "s"].Nodup := by decide
  obtain ⟨body, last, run, -, -, -, once⟩ :
      ∃ body last, generateLevel true script (.start load) = (some body, last) ∧ _ :=
    @bound_once_iff ⟨"lib", none, true⟩ _ false script accepted
  rw [run] at names
  exact ⟨accepted, body, last, run, names, once.mp (names ▸ distinct)⟩

/-- **A helper is bound twice.** A variable may have the name of a helper, which the program then
declares a second time. -/
theorem helper_bound_twice :
    let source := "string __hsc_toNumber = \"1\";\n__hsc_toNumber.toNumber();"
    let load := Options.load ⟨"lib", none, true⟩ fun _ => .error .notFound
    let outcome := generateLevel true (parse source.toList).statements (.start load)
    (compileSource load false source).diagnostics = [] ∧
      (compileSource load false source).code =
        "(async () => \x7b\n// Embedded imports\nconst __hsc_toNumber = (s) => Number(s);\n" ++
        "    let __hsc_toNumber = \"1\";\n    __hsc_toNumber(__hsc_toNumber);\n\x7d)();\n" ∧
      boundNames outcome.2.imports outcome.2.helpers (outcome.1.getD []) =
        ["__hsc_toNumber", "__hsc_toNumber"] := by
  intro source load outcome
  refine ⟨?_, ?_, ?_⟩
  · decide +kernel
  · decide +kernel
  · decide +kernel

end TypedScript
