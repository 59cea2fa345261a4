/-
**References.** A script refers to declared names in the bases of its accesses, calls and
modifications. Each of them is generated in a context of its own: that of the statement it stands
in, which knows the declarations in front of that statement.
-/

import TypedScript.Proofs.Scoping.Surroundings

namespace TypedScript

/-! ### What is inside -/

/-- What an expression or a statement of a script holds. -/
inductive Item where
  /-- The base of an access, a call or a modification. -/
  | base (name : String)
  | block (params : List Param) (body : List Stmt)

mutual

/-- What a token holds, outside of its inner blocks. -/
def Token.items : Token → List Item
  | .access base steps => .base base :: stepsItems steps
  | .group tokens => tokensItems tokens
  | .call base steps arguments => .base base :: stepsItems steps ++ argumentsItems arguments
  | .lambda params body => [.block params body]
  | .await operand => operand.items
  | .number _ | .text _ | .bool _ | .null | .operator _ | .object _ | .array _ => []

def tokensItems : List Token → List Item
  | [] => []
  | token :: rest => token.items ++ tokensItems rest

def Step.items : Step → List Item
  | .property _ => []
  | .index tokens => tokensItems tokens

def stepsItems : List Step → List Item
  | [] => []
  | step :: rest => step.items ++ stepsItems rest

def argumentsItems : List (List Token) → List Item
  | [] => []
  | tokens :: rest => tokensItems tokens ++ argumentsItems rest

end

/-- What the other side of a branch holds. -/
def Otherwise.items : Otherwise → List Item
  | .nothing => []
  | .block body => [.block [] body]
  | .elseIf _ condition body otherwise =>
    tokensItems condition ++ .block [] body :: otherwise.items

/-- What a statement holds, outside of its inner blocks. -/
def Kind.items : Kind → List Item
  | .declare _ _ value _ => tokensItems value
  | .modify base steps _ value => .base base :: stepsItems steps ++ tokensItems value
  | .expression tokens => tokensItems tokens
  | .function _ params _ body => [.block params body]
  | .branch condition body otherwise =>
    tokensItems condition ++ .block [] body :: otherwise.items
  | .loop condition body => tokensItems condition ++ [.block [] body]
  | .call base steps arguments => .base base :: stepsItems steps ++ argumentsItems arguments
  | .imports _ => []
  | .returns none => []
  | .returns (some tokens) => tokensItems tokens

theorem stepsItems_property (steps : List Step) (name : String) :
    stepsItems (steps ++ [.property name]) = stepsItems steps := by
  induction steps with
  | nil => rfl
  | cons step rest ih => rw [List.cons_append, stepsItems, stepsItems, ih]

namespace Target

/-- What an expression or a statement of a program holds. -/
inductive Item where
  | name (name : String)
  | block (params : List String) (body : List Stmt)

mutual

/-- What an expression holds, outside of its inner blocks. -/
def Expr.items : Expr → List Item
  | .name name => [.name name]
  | .member receiver _ => receiver.items
  | .index receiver index => receiver.items ++ index.items
  | .call callee arguments => callee.items ++ argumentsItems arguments
  | .not inner | .minus inner | .await inner | .group inner | .toInt inner | .toUint inner =>
    inner.items
  | .binary _ left right => left.items ++ right.items
  | .arrow _ params body => [.block params body]
  | .number _ | .text _ | .bool _ | .null | .array _ | .object _ => []

def argumentsItems : List Expr → List Item
  | [] => []
  | argument :: rest => argument.items ++ argumentsItems rest

end

/-- What the other side of a branch holds. -/
def Alternative.items : Alternative → List Item
  | .nothing => []
  | .block body => [.block [] body]
  | .elseIf condition body alternative =>
    condition.items ++ .block [] body :: alternative.items

/-- What a statement holds, outside of its inner blocks. -/
def Stmt.items : Stmt → List Item
  | .declare _ _ value => value.items
  | .assign target _ value => target.items ++ value.items
  | .evaluate value => value.items
  | .function _ _ params body => [.block params body]
  | .branch condition body alternative =>
    condition.items ++ .block [] body :: alternative.items
  | .loop condition body => condition.items ++ [.block [] body]
  | .returns none => []
  | .returns (some value) => value.items

end Target

/-! ### Contexts of references -/

/-- Contexts with the same names. -/
structure Context.Alike (place other : Context) : Prop where
  names : other.scopes.frames.map Frame.names = place.scopes.frames.map Frame.names
  imports : other.imports = place.imports

/-- A context in which the first statement of a block is generated, if the block stands at a place:
the parameters and the functions of the block are declared. -/
def Opens (place : Context) (params : List String) (body : List Stmt) (inside : Context) : Prop :=
  ∃ outside line bindings, place.Alike outside ∧ bindings.map Binding.name = params ∧
    (do Gen.declareAll line bindings; hoist body) outside.enterBlock = (some (), inside) ∧
    inside.diagnostics = outside.diagnostics

section Throughout

-- What is to hold of a name, given the context and the blocks of the program around it.
variable (holds : Context → List Surrounding → String → Prop)

mutual

/-- A reference, or every reference of an inner block. -/
inductive ItemThroughout : Context → List Surrounding → Item → Target.Item → Prop
  | base (held : holds place trail name) : ItemThroughout place trail (.base name) (.name name)
  | block (opens : Opens place (params.map Param.name) body inside)
      (inner : BlockThroughout false inside trail (params.map Param.name) [] body code) :
      ItemThroughout place trail (.block params body) (.block (params.map Param.name) code)

/-- Every reference of the given items, which are found again among those of the program. -/
inductive ItemsThroughout : Context → List Surrounding → List Item → List Target.Item → Prop
  | nil : ItemsThroughout place trail [] made
  | cons (found : one ∈ made) (first : ItemThroughout place trail item one)
      (others : ItemsThroughout place trail rest made) :
      ItemsThroughout place trail (item :: rest) made

/-- Every reference of the statements of a block, from a place of it on. Given are the context at
that place, the blocks of the program around the block, its parameters, the code in front of the
place, and the code of the statements. -/
inductive BlockThroughout : Bool → Context → List Surrounding → List String → List Target.Stmt →
    List Stmt → List Target.Stmt → Prop
  | nil : BlockThroughout toplevel place outer params earlier [] []
  | cons (run : generateStatement toplevel stmt place = (code?, after))
      (here : ItemsThroughout place (⟨params, earlier, code?.toList ++ others⟩ :: outer)
        stmt.kind.items (code?.toList.flatMap Target.Stmt.items))
      (behind : BlockThroughout toplevel after outer params (earlier ++ code?.toList) rest others) :
      BlockThroughout toplevel place outer params earlier (stmt :: rest) (code?.toList ++ others)

end

end Throughout

namespace ItemsThroughout

variable {holds : Context → List Surrounding → String → Prop} {place : Context}
  {trail : List Surrounding} {items others : List Item} {made more : List Target.Item}

theorem mono (included : made ⊆ more) (throughout : ItemsThroughout holds place trail items made) :
    ItemsThroughout holds place trail items more := by
  induction items with
  | nil => exact .nil
  | cons item rest ih =>
    cases throughout with
    | cons found first others => exact .cons (included found) first (ih others)

theorem append (front : ItemsThroughout holds place trail items made)
    (back : ItemsThroughout holds place trail others made) :
    ItemsThroughout holds place trail (items ++ others) made := by
  induction items with
  | nil => exact back
  | cons item rest ih =>
    cases front with
    | cons found first others => exact .cons found first (ih others)

end ItemsThroughout

end TypedScript
