/-
**Blocks and their names.** A script declares its variables one after the other, and a name means
the innermost declaration so far. In a program a variable belongs to its whole block, and a name
means the innermost block that declares it anywhere. The two disagree about a name exactly if a
block in between declares it later on.
-/

import TypedScript.Proofs.Generation.Restoration

namespace TypedScript

/-! ### Declared names -/

namespace Target

/-- The variable that a statement declares, by `let` or `const`. -/
def Stmt.declares? : Stmt → Option String
  | .declare _ name _ => some name
  | _ => none

/-- The function that a statement declares. -/
def Stmt.function? : Stmt → Option String
  | .function _ name _ _ => some name
  | _ => none

def declaredVariables (block : List Stmt) : List String :=
  block.filterMap Stmt.declares?

def declaredFunctions (block : List Stmt) : List String :=
  block.filterMap Stmt.function?

theorem declaredVariables_append (front back : List Stmt) :
    declaredVariables (front ++ back) = declaredVariables front ++ declaredVariables back :=
  List.filterMap_append

end Target

/-- A block of a program around a place in it. -/
structure Surrounding where
  /-- The parameters, if the block is the body of a function. -/
  params : List String
  earlier : List Target.Stmt
  /-- The statement that holds the place, and those behind it. -/
  rest : List Target.Stmt

namespace Surrounding

def names (surrounding : Surrounding) : List String :=
  surrounding.params ++ Target.declaredFunctions (surrounding.earlier ++ surrounding.rest) ++
    Target.declaredVariables (surrounding.earlier ++ surrounding.rest)

/-- The names that are declared without the variables at the place and behind it. -/
def known (surrounding : Surrounding) : List String :=
  surrounding.params ++ Target.declaredFunctions (surrounding.earlier ++ surrounding.rest) ++
    Target.declaredVariables surrounding.earlier

def later (surrounding : Surrounding) : List String :=
  Target.declaredVariables surrounding.rest

theorem mem_names {surrounding : Surrounding} {name : String} :
    name ∈ surrounding.names ↔ name ∈ surrounding.known ∨ name ∈ surrounding.later := by
  rw [← List.mem_append]
  unfold names known later
  rw [Target.declaredVariables_append, ← List.append_assoc]

end Surrounding

/-! ### Where a name is found -/

/-- The number of the innermost block that declares a name, counted from the inside. -/
def declaredIn? (trail : List Surrounding) (name : String) : Option Nat :=
  trail.findIdx? fun surrounding => name ∈ surrounding.names

/-- The number of the innermost frame with a name, counted from the inside. -/
def Scopes.foundIn? (scopes : Scopes) (name : String) : Option Nat :=
  scopes.frames.findIdx? fun frame => (frame.find? name).isSome

theorem Scopes.lookup?_eq (scopes : Scopes) (name : String) :
    scopes.lookup? name = (scopes.foundIn? name).bind fun depth =>
      scopes.frames[depth]?.bind fun frame => frame.find? name := by
  unfold lookup? foundIn?
  induction scopes.frames with
  | nil => rfl
  | cons frame outer ih =>
    rw [List.findSome?_cons, List.findIdx?_cons]
    cases found : frame.find? name with
    | none => simpa [Option.bind_map, Function.comp_def] using ih
    | some binding => simp [found]

/-! ### Frames and blocks -/

/-- A frame has the names that a block declares, but for the variables at the place and behind it. -/
def Tracks (names : List String) (surrounding : Surrounding) : Prop :=
  ∀ name, name ∈ names ↔ name ∈ surrounding.known

/-- The frames around a place know what the blocks around it have declared so far. -/
def Aligned (place : Context) (trail : List Surrounding) : Prop :=
  List.Forall₂ Tracks (place.scopes.frames.map Frame.names) trail

/-- **The frame is that of the block**, unless a block further inside declares the name at the place
or behind it. -/
theorem Aligned.declaredIn?_eq_some_iff {place : Context} {trail : List Surrounding}
    (aligned : Aligned place trail) {name : String} {depth : Nat}
    (found : place.scopes.foundIn? name = some depth) :
    declaredIn? trail name = some depth ↔
      ∀ surrounding ∈ trail.take depth, name ∉ surrounding.later := by
  unfold Aligned at aligned
  unfold Scopes.foundIn? at found
  unfold declaredIn?
  generalize place.scopes.frames = frames at aligned found
  induction frames generalizing trail depth with
  | nil => contradiction
  | cons frame outer ih =>
    obtain ⟨surrounding, rest, here, around, rfl⟩ := List.forall₂_cons_left_iff.mp aligned
    rw [List.findIdx?_cons] at found ⊢
    by_cases known : name ∈ surrounding.known
    · have inFrame : (frame.find? name).isSome = true :=
        (frame.find?_isSome name).mpr ((here name).mpr known)
      rw [inFrame, if_pos rfl] at found
      obtain rfl := Option.some.inj found
      simp [Surrounding.mem_names, known]
    · have notInFrame : (frame.find? name).isSome = false := by
        rw [← Bool.not_eq_true, frame.find?_isSome, here name]
        exact known
      rw [notInFrame, if_neg Bool.false_ne_true] at found
      obtain ⟨depth, foundOutside, rfl⟩ := Option.map_eq_some_iff.mp found
      have outside := ih around foundOutside
      by_cases later : name ∈ surrounding.later
      · simp [Surrounding.mem_names, later]
      · simpa [Surrounding.mem_names, known, later] using outside

end TypedScript
