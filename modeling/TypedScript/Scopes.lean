/-
**Scopes.** The names declared in the blocks around a place, the innermost block first. The
outermost frame is never left.
-/

import TypedScript.Syntax.Tree

namespace TypedScript

/-- What a declared name stands for. -/
inductive Meaning where
  | value (type : Ty)
  /-- A function, `hoisted` until its own statement is reached. -/
  | function (params : List Param) (returns : Ty) (async hoisted : Bool)
  deriving DecidableEq, Repr

/-- A declared name. -/
structure Binding where
  name : String
  meaning : Meaning
  /-- Whether the name keeps its value. -/
  constant : Bool
  deriving DecidableEq, Repr

/-- The type of a plain reference to the name. -/
def Binding.type (binding : Binding) : Ty :=
  match binding.meaning with
  | .value type => type
  | .function .. => .func

/-- The names declared in one block, in the order of their declarations. -/
structure Frame where
  bindings : List Binding
  deriving DecidableEq, Repr

namespace Frame

/-- A block without declarations. -/
def empty : Frame :=
  ⟨[]⟩

/-- The declaration of a name in a frame. -/
def find? (frame : Frame) (name : String) : Option Binding :=
  frame.bindings.find? fun binding => binding.name == name

/-- Replaces the declaration of a name, or adds one at the end. -/
def putIn (binding : Binding) : List Binding → List Binding
  | [] => [binding]
  | other :: rest =>
    if other.name = binding.name then binding :: rest else other :: putIn binding rest

/-- Declares a name in a frame. -/
def put (frame : Frame) (binding : Binding) : Frame :=
  ⟨putIn binding frame.bindings⟩

end Frame

/-- The frames around a place. -/
structure Scopes where
  /-- The frames of the enclosing blocks, the innermost first. -/
  inner : List Frame
  /-- The frame of the whole script. -/
  outermost : Frame
  deriving DecidableEq, Repr

namespace Scopes

/-- Only the frame of the script. -/
def start : Scopes :=
  ⟨[], .empty⟩

variable (scopes : Scopes)

/-- All frames, the innermost first. -/
def frames : List Frame :=
  scopes.inner ++ [scopes.outermost]

/-- The number of frames. -/
def depth : Nat :=
  scopes.inner.length + 1

/-- The innermost frame. -/
def current : Frame :=
  match scopes.inner with
  | [] => scopes.outermost
  | frame :: _ => frame

/-- Enters a block. -/
def push : Scopes :=
  { scopes with inner := .empty :: scopes.inner }

/-- Leaves the innermost block, unless only the script is left. -/
def pop? : Option (Frame × Scopes) :=
  match scopes.inner with
  | [] => none
  | frame :: outer => some (frame, { scopes with inner := outer })

/-- Leaves the innermost block, if there is one. -/
def pop : Scopes :=
  { scopes with inner := scopes.inner.tail }

/-- The innermost declaration of a name. -/
def lookup? (name : String) : Option Binding :=
  scopes.frames.findSome? fun frame => frame.find? name

/-- The declaration of a name in the innermost block. -/
def lookupCurrent? (name : String) : Option Binding :=
  scopes.current.find? name

/-- Declares a name in the innermost block. -/
def put (scopes : Scopes) (binding : Binding) : Scopes :=
  match scopes.inner with
  | [] => { scopes with outermost := scopes.outermost.put binding }
  | frame :: outer => { scopes with inner := frame.put binding :: outer }

end Scopes

end TypedScript
