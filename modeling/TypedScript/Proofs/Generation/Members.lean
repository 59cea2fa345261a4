/-
**Members of modules.** The header of a module may list a name several times, among the functions,
among the properties or in both lists. Reading a member takes the first property of the name,
calling it takes the first function, and of the entries in the exported object the last one counts.
These are one entry for a name that is listed once. Otherwise they may be three.
-/

import TypedScript.Generation.Calls

namespace TypedScript

/-- What the header of a module lists. -/
inductive ModuleEntry where
  | function (entry : ModuleFunction)
  | property (entry : ModuleProperty)

namespace ModuleEntry

def name : ModuleEntry → String
  | .function entry => entry.name
  | .property entry => entry.name

/-- The text of an entry in the exported object. -/
def exported : ModuleEntry → String
  | .function entry => entry.name
  | .property entry => Module.exportedProperty entry

/-- The type of the value of an entry. -/
def type : ModuleEntry → Ty
  | .function _ => .func
  | .property entry => entry.type

/-- The target of a call of an entry. -/
def target (code : Target.Expr) (name : String) (line : Nat) : ModuleEntry → Gen CallTarget
  | .function entry =>
    pure (.checked code none entry.params entry.variadic entry.returns entry.async)
  | .property entry => callValue ⟨entry.type, code⟩ name line

end ModuleEntry

namespace Module

variable (module : Module) (name : String)

/-- All entries, in the order of the exported object. -/
def entries : List ModuleEntry :=
  module.functions.map .function ++ module.properties.map .property

/-- The entries of a name. -/
def listed : List ModuleEntry :=
  module.entries.filter fun entry => entry.name == name

/-- The entry that reading a member takes. -/
def read? : Option ModuleEntry :=
  ((module.property? name).map .property).or ((module.function? name).map .function)

/-- The entry that calling a member takes. -/
def called? : Option ModuleEntry :=
  ((module.function? name).map .function).or ((module.property? name).map .property)

/-- The entry whose value the exported object holds. -/
def held? : Option ModuleEntry :=
  (module.listed name).getLast?

/-- The last function of a name. -/
def lastFunction? : Option ModuleFunction :=
  (module.functions.filter fun entry => entry.name == name).getLast?

/-- The last property of a name. -/
def lastProperty? : Option ModuleProperty :=
  (module.properties.filter fun entry => entry.name == name).getLast?

variable {module name}

theorem memberType_eq : module.memberType? name = (module.read? name).map ModuleEntry.type := by
  unfold memberType? read?
  cases module.property? name with
  | some property => rfl
  | none => cases module.function? name <;> rfl

theorem exports_eq (plain : module.customReturn = none) :
    module.exports = if module.entries = [] then "\x7b\x7d"
      else "\x7b " ++ ", ".intercalate (module.entries.map ModuleEntry.exported) ++ " \x7d" := by
  have same : module.entries.map ModuleEntry.exported =
      module.functions.map (·.name) ++ module.properties.map exportedProperty := by
    rw [entries, List.map_append, List.map_map, List.map_map]
    rfl
  rw [exports, plain]
  rw [← same]
  simp only [List.isEmpty_iff, List.map_eq_nil_iff]

/-- The first function and the first property of a name, among the entries of the name. -/
theorem listed_eq : module.listed name =
    (module.functions.filter fun entry => entry.name == name).map .function ++
      (module.properties.filter fun entry => entry.name == name).map .property := by
  rw [listed, entries, List.filter_append, List.filter_map, List.filter_map]
  rfl

theorem called_eq : module.called? name = (module.listed name).head? := by
  rw [called?, listed_eq, List.head?_append, List.head?_map, List.head?_map, List.head?_filter,
    List.head?_filter]
  rfl

/-- Reading and calling take one entry exactly if the name is in one list only. -/
theorem read_eq_called_iff : module.read? name = module.called? name ↔
    module.function? name = none ∨ module.property? name = none := by
  unfold read? called?
  cases module.function? name <;> cases module.property? name <;> simp

/-- Properties are exported behind functions. -/
theorem held_eq : module.held? name =
    ((module.lastProperty? name).map .property).or ((module.lastFunction? name).map .function) := by
  rw [held?, listed_eq, List.getLast?_append, List.getLast?_map, List.getLast?_map]
  rfl

theorem property?_eq : module.property? name =
    (module.properties.filter fun entry => entry.name == name).head? :=
  (List.head?_filter ..).symm

theorem function?_eq : module.function? name =
    (module.functions.filter fun entry => entry.name == name).head? :=
  (List.head?_filter ..).symm

/-- **The entry read is the one exported** exactly if the first property of the name is the last one
or, without a property of the name, the first function is the last one. -/
theorem read_eq_held_iff : module.read? name = module.held? name ↔
    module.property? name = module.lastProperty? name ∧
      (module.property? name = none → module.function? name = module.lastFunction? name) := by
  rw [read?, held_eq, property?_eq, function?_eq, lastProperty?, lastFunction?]
  have injective : Function.Injective (Option.map ModuleEntry.function) :=
    Option.map_injective fun _ _ same => ModuleEntry.function.inj same
  cases module.properties.filter fun entry => entry.name == name with
  | nil => simp [injective.eq_iff]
  | cons first others =>
    rw [List.getLast?_cons]
    simp

/-- **The entry called is the one exported** exactly if it is the one read as well. -/
theorem called_eq_held_iff : module.called? name = module.held? name ↔
    (module.function? name = none ∨ module.property? name = none) ∧
      module.read? name = module.held? name := by
  by_cases apart : module.function? name = none ∨ module.property? name = none
  · rw [read_eq_called_iff.mpr apart]
    exact (and_iff_right apart).symm
  · refine iff_of_false (fun same => ?_) fun both => apart both.1
    obtain ⟨function, property⟩ := not_or.mp apart
    obtain ⟨function, found⟩ := Option.ne_none_iff_exists'.mp function
    rw [property?_eq, List.head?_eq_none_iff] at property
    have last : module.lastProperty? name ≠ none := mt List.getLast?_eq_none_iff.mp property
    obtain ⟨property, found'⟩ := Option.ne_none_iff_exists'.mp last
    rw [called?, held_eq, found, found'] at same
    cases same

/-- A name that is listed once stands for its entry everywhere. -/
theorem eq_held_of_listed (once : (module.listed name).length ≤ 1) :
    module.read? name = module.held? name ∧ module.called? name = module.held? name := by
  have single {α : Type} {list : List α} (short : list.length ≤ 1) :
      list.head? = list.getLast? := by
    rcases list with _ | ⟨first, _ | ⟨second, rest⟩⟩
    · rfl
    · rfl
    · simp at short
  have called : module.called? name = module.held? name := by
    rw [called_eq, held?, single once]
  exact ⟨(called_eq_held_iff.mp called).2, called⟩

end Module

/-- **The entry of a member.** Reading a member, with or without further steps, takes the first
property of its name or else the first function. Calling it takes the first entry that is listed,
where functions come first, and the exported object holds the last one. Reading and calling agree
exactly if the name is not in both lists. What is read is what is exported exactly if the first
property of the name is the last one or, without properties, the first function is; what is called
is so exactly if moreover it is what is read. All three are one entry if the name is listed once. -/
theorem member_entries {module : Module} {context : Context} {base : String}
    (undeclared : context.scopes.lookup? base = none)
    (imported : context.module? base = some module) (plain : module.customReturn = none)
    (name : String) (line : Nat) :
    (∀ steps, resolveBase base (.property name :: steps) line context =
      (module.read? name).elim (Gen.fail (.unknownModuleMember base name) line context) fun entry =>
        (some (⟨entry.type, .member (.name base) name⟩, 1), context)) ∧
    (∀ walk, callTarget base [.property name] line walk context =
      ((module.called? name).elim (Gen.fail (.unknownModuleMember base name) line) fun entry =>
        entry.target (.member (.name base) name) (base ++ "." ++ name) line) context) ∧
    (module.exports = if module.entries = [] then "\x7b\x7d"
      else "\x7b " ++ ", ".intercalate (module.entries.map ModuleEntry.exported) ++ " \x7d") ∧
    module.called? name = (module.listed name).head? ∧
    (module.read? name = module.called? name ↔
      module.function? name = none ∨ module.property? name = none) ∧
    (module.read? name = module.held? name ↔
      module.property? name = module.lastProperty? name ∧
        (module.property? name = none → module.function? name = module.lastFunction? name)) ∧
    (module.called? name = module.held? name ↔
      (module.function? name = none ∨ module.property? name = none) ∧
        module.read? name = module.held? name) ∧
    ((module.listed name).length ≤ 1 →
      module.read? name = module.held? name ∧ module.called? name = module.held? name) := by
  refine ⟨fun steps => ?_, fun walk => ?_, module.exports_eq plain, module.called_eq,
    module.read_eq_called_iff, module.read_eq_held_iff, module.called_eq_held_iff,
    module.eq_held_of_listed⟩
  · simp only [resolveBase, bind, Gen.andThen, Gen.context, undeclared, imported,
      Module.memberType_eq]
    cases module.read? name <;> rfl
  · simp only [callTarget, callModule, bind, Gen.andThen, Gen.context, undeclared, imported,
      Module.called?]
    cases module.function? name with
    | some function => rfl
    | none => cases module.property? name <;> rfl

/-- A member that is read as a property and called as a function. -/
theorem member_entries_twofold :
    let module : Module := ⟨"m", "m", "", none, [⟨"f", [], .any, false, false⟩],
      [⟨"f", .boolean, some (.bool true)⟩]⟩
    let context := { Context.start fun path => .error (.variableNotDeclared path) with
      imports := [module] }
    resolveBase "m" [.property "f"] 1 context =
        (some (⟨.boolean, .member (.name "m") "f"⟩, 1), context) ∧
      ∀ walk, callTarget "m" [.property "f"] 1 walk context =
        (some (.checked (.member (.name "m") "f") none [] false .any false), context) := by
  intro module context
  have found : context.module? "m" = some module := rfl
  obtain ⟨reads, calls, -⟩ := member_entries rfl found rfl "f" 1
  exact ⟨reads [], calls⟩

/-- **A member that is called need not be the one that is exported**: here the function is called,
and the object holds the value of the property. -/
theorem called_not_held :
    let file := "\x7b\"module\":\"m\",\"functions\":[\x7b\"name\":\"f\"\x7d],\"properties\":" ++
      "[\x7b\"name\":\"f\",\"type\":\"boolean\",\"value\":true\x7d]\x7d\n---\nfunction f() \x7b\x7d"
    (Module.parse "m" file.toList).toOption.map (fun module =>
        (module.customReturn, module.exports, (module.called? "f").map ModuleEntry.type,
          (module.held? "f").map ModuleEntry.type)) =
      some (none, "\x7b f, f: true \x7d", some .func, some .boolean) := by
  decide +kernel

end TypedScript
