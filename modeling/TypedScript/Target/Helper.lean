/-
**Helper functions of generated programs.** Methods that have no counterpart in generated code are
calls of helpers. A program defines the helpers it uses, always in the same order.
-/

namespace TypedScript

/-- The functions that generated code may need. -/
inductive Helper where
  | toNumber
  | keys
  | values
  | entries
  deriving DecidableEq, Repr

namespace Helper

/-- Every helper, in the order of their definitions. -/
def all : List Helper :=
  [.toNumber, .keys, .values, .entries]

/-- All helpers in the order of their names. -/
def byName : List Helper :=
  [.entries, .keys, .toNumber, .values]

/-- The name of a helper in a program. -/
def name : Helper → String
  | .toNumber => "__hsc_toNumber"
  | .keys => "__hsc_keys"
  | .values => "__hsc_values"
  | .entries => "__hsc_entries"

/-- The helper of a name. -/
def ofName? (name : String) : Option Helper :=
  all.find? fun helper => helper.name == name

/-- The definition of a helper in a program. -/
def definition : Helper → String
  | .toNumber => "const __hsc_toNumber = (s) => Number(s);"
  | .keys => "const __hsc_keys = (o) => Object.keys(o);"
  | .values => "const __hsc_values = (o) => Object.values(o);"
  | .entries => "const __hsc_entries = (o) => Object.entries(o);"

/-- The definitions of a set of helpers, one a line. -/
def definitions (used : List Helper) : String :=
  String.join ((all.filter used.contains).map fun helper => helper.definition ++ "\n")

end Helper

end TypedScript
