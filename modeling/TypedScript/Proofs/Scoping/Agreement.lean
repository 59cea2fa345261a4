/-
**Scripts and programs mean the same declarations.** In a script that is accepted, every name was
looked up in the context of its statement. The program refers to the block of the frame that the
name was found in, unless a block further inside declares the name at the statement or behind it:
such a declaration captures the name.
-/

import TypedScript.Proofs.Generation.Emission

namespace TypedScript

/-! ### Agreement -/

/-- A script and its program agree on what a name means exactly if no block inside the one that
declares it for the script declares it as a variable at the place or behind it. A name that is not
declared is that of a module. -/
def Agrees (place : Context) (trail : List Surrounding) (name : String) : Prop :=
  match place.scopes.foundIn? name with
  | none => (place.module? name).isSome = true
  | some depth => declaredIn? trail name = some depth ↔
      ∀ surrounding ∈ trail.take depth, name ∉ surrounding.later

theorem agrees_of_aligned {place : Context} {trail : List Surrounding} {name : String}
    (aligned : Aligned place trail) (known : place.Knows name) : Agrees place trail name := by
  unfold Agrees
  split
  · rename_i absent
    exact known.resolve_left (by rw [absent]; nofun)
  · rename_i depth found
    exact aligned.declaredIn?_eq_some_iff found

/-- At a place, every reference of a script is found again in the program, and they agree. -/
def Covers (place : Context) (items : List Item) (made : List Target.Item) : Prop :=
  ∀ trail, Aligned place trail → ItemsThroughout Agrees place trail items made

namespace Covers

variable {place : Context} {items others : List Item} {made more : List Target.Item}
  {body : List Stmt} {code : List Target.Stmt}

theorem nil : Covers place [] made :=
  fun _ _ => .nil

theorem append (front : Covers place items made) (back : Covers place others made) :
    Covers place (items ++ others) made :=
  fun trail aligned => (front trail aligned).append (back trail aligned)

theorem mono (covers : Covers place items made) (included : made ⊆ more) :
    Covers place items more :=
  fun trail aligned => (covers trail aligned).mono included

theorem join (front : Covers place items made) (back : Covers place others more) :
    Covers place (items ++ others) (made ++ more) :=
  (front.mono (List.subset_append_left _ _)).append (back.mono (List.subset_append_right _ _))

theorem base {name : String} (known : place.Knows name) (found : .name name ∈ made)
    (rest : Covers place items made) : Covers place (.base name :: items) made :=
  fun trail aligned => .cons found (.base (agrees_of_aligned aligned known)) (rest trail aligned)

theorem block {params : List Param} {inside : Context}
    (opens : Opens place (params.map Param.name) body inside) (emitted : BlockCode body code)
    (inner : ∀ outer params earlier, Aligned inside (⟨params, earlier, code⟩ :: outer) →
      BlockThroughout Agrees false inside outer params earlier body code) :
    Covers place [.block params body] [.block (params.map Param.name) code] :=
  fun trail aligned => .cons (List.mem_singleton_self _)
    (.block opens (inner trail _ [] (opens.aligned emitted aligned))) .nil

theorem branch (tested : Covers place items made)
    (block : Covers place [.block [] body] [.block [] code]) (rest : Covers place others more) :
    Covers place (items ++ .block [] body :: others) (made ++ .block [] code :: more) := by
  have inner : [Target.Item.block [] code] ⊆ made ++ .block [] code :: more := by simp
  have behind : more ⊆ made ++ .block [] code :: more :=
    List.Subset.trans (List.subset_cons_self _ _) (List.subset_append_right _ _)
  exact (tested.mono (List.subset_append_left _ _)).append
    ((block.mono inner).append (rest.mono behind))

end Covers

/-! ### Derivations -/

theorem tokensItems_append (front back : List Token) :
    tokensItems (front ++ back) = tokensItems front ++ tokensItems back := by
  induction front with
  | nil => rfl
  | cons token rest ih => rw [List.cons_append, tokensItems, tokensItems, ih, List.append_assoc]

theorem unaryCode_items (op : Operator) (code : Target.Expr) :
    (unaryCode op code).items = code.items := by
  unfold unaryCode
  split <;> rfl

theorem truncate_items (type : Ty) (code : Target.Expr) :
    (type.truncate code).items = code.items := by
  unfold Ty.truncate
  split_ifs <;> rfl

theorem assignmentCode_items (integer : Option Ty) (op : Operator) (target value : Target.Expr) :
    target.items ⊆ (assignmentCode integer op target value).items ∧
      value.items ⊆ (assignmentCode integer op target value).items := by
  unfold assignmentCode
  split
  · refine ⟨List.subset_append_left _ _, ?_⟩
    rw [Target.Stmt.items, truncate_items]
    exact List.Subset.trans (List.subset_append_right _ _) (List.subset_append_right _ _)
  · refine ⟨List.subset_append_left _ _, ?_⟩
    rw [Target.Stmt.items, truncate_items]
    exact List.subset_append_right _ _
  · exact ⟨List.subset_append_left _ _, List.subset_append_right _ _⟩

/-- The references of a script are found again in its code. Steps hold what their receiver does
besides what they refer to themselves. -/
abbrev references : Invariant where
  token place token code _ := Covers place token.items code.items
  tokens place tokens code _ := Covers place (tokensItems tokens) code.items
  steps place receiver steps code _ :=
    receiver.items ⊆ code.items ∧ Covers place (stepsItems steps) code.items
  arguments place arguments codes _ :=
    Covers place (argumentsItems arguments) (Target.argumentsItems codes)
  kind place kind code _ := Covers place kind.items code.items
  otherwise place otherwise code _ := Covers place otherwise.items code.items
  block toplevel inside body code _ :=
    ∀ outer params earlier, Aligned inside (⟨params, earlier, code⟩ :: outer) →
      BlockThroughout Agrees toplevel inside outer params earlier body code

theorem references_access {place : Context} {base : String} {steps : List Step}
    {code : Target.Expr} {used : List Helper} (known : place.Knows base)
    (taken : references.steps place (.name base) steps code used) :
    Covers place (.base base :: stepsItems steps) code.items :=
  .base known (taken.1 (List.mem_singleton_self _)) taken.2

theorem references_expressions : ExpressionRules references where
  number := .nil
  text := .nil
  bool := .nil
  null := .nil
  object := .nil
  array := .nil
  group inner := inner
  access known taken := references_access known taken
  callee known taken values := (references_access known taken).join values
  helper known taken _ values := by
    show Covers _ (.base _ :: stepsItems (_ ++ [_]) ++ _) _
    rw [stepsItems_property]
    -- The receiver is the first argument of a helper.
    exact ((references_access known taken).join values).mono (List.subset_append_right _ _)
  lambda opens made block := Covers.block opens made.code block
  await awaited := awaited
  value single := by
    show Covers _ (tokensItems [_]) _
    rwa [tokensItems, tokensItems, List.append_nil]
  unary _ operand := by
    show Covers _ _ (unaryCode _ _).items
    rwa [unaryCode_items]
  binary front _ operand := by
    show Covers _ (tokensItems (_ ++ _)) _
    rw [tokensItems_append]
    exact front.join operand
  noStep := ⟨List.Subset.refl _, .nil⟩
  property taken := taken
  index inner taken := by
    obtain ⟨kept, covers⟩ := taken
    have first := List.Subset.trans (List.subset_append_left _ _) kept
    have second := List.Subset.trans (List.subset_append_right _ _) kept
    exact ⟨first, (inner.mono second).append covers⟩
  noArgument := .nil
  argument first others := first.join others

theorem references_statements : StatementRules references where
  declare inner := by
    show Covers _ _ (Ty.truncate _ _).items
    rwa [truncate_items]
  modify known taken inner := by
    obtain ⟨left, right⟩ := assignmentCode_items _ _ _ _
    exact ((references_access known taken).mono left).append (inner.mono right)
  expression inner := inner
  call called := called
  function opens made block := Covers.block opens made.code block
  branch tested opens made block rest := tested.branch (Covers.block opens made.code block) rest
  loop tested opens made block := tested.branch (Covers.block opens made.code block) .nil
  returnsNothing := .nil
  returnsValue inner := by
    show Covers _ _ (Ty.truncate _ _).items
    rwa [truncate_items]
  nothing := .nil
  block opens made block := Covers.block opens made.code block
  elseIf tested opens made block rest := tested.branch (Covers.block opens made.code block) rest
  noStatement _ _ _ _ := .nil
  statement {_ stmt place code _ _ _ codes _} run gains one behind outer params earlier aligned := by
    have here : ItemsThroughout Agrees place (⟨params, earlier, code :: codes⟩ :: outer)
        stmt.kind.items ((some code).toList.flatMap Target.Stmt.items) := by
      rw [Option.toList_some, List.flatMap_singleton]
      exact one _ aligned
    exact .cons run here (behind outer params _ (gains.aligned aligned))
  imports {_ stmt _ _ _ _ _} run gains isImport behind outer params _ aligned := by
    have nothing : stmt.kind.items = [] := by
      revert isImport
      cases stmt.kind <;> simp [Kind.isImport, Kind.items]
    exact BlockThroughout.cons run (nothing ▸ .nil) (behind outer params _ (gains.aligned aligned))

/-- **Every reference of a block that is made** is found again in its program, and both agree on
it. -/
theorem BlockMade.throughout {toplevel : Bool} {inside : Context} {body : List Stmt}
    {code : List Target.Stmt} {used : List Helper} (made : BlockMade toplevel inside body code used) :
    ∀ outer params earlier, Aligned inside (⟨params, earlier, code⟩ :: outer) →
      BlockThroughout Agrees toplevel inside outer params earlier body code :=
  made.holds ⟨references_expressions, references_statements⟩

/-! ### Accepted scripts -/

/-- **A script that is accepted and its program agree on every reference**, but for those that are
captured: the program refers to the block whose frame the name was found in exactly if no block
inside it declares the name as a variable at the statement of the reference or behind it. -/
theorem names_agree (load : String → Except Cause Module) (check : Bool) (script : List Stmt)
    (accepted : (compile load check script).diagnostics = []) :
    ∃ imports helpers body inside,
      (compile load check script).code = assemble imports helpers body ∧
        hoist script (.start load) = (some (), inside) ∧
          BlockThroughout Agrees true inside [] [] [] script body := by
  obtain ⟨inside, body, last, used, hoists, -, opened, -, -, made, code⟩ := compile_made accepted
  have aligned : Aligned inside [⟨[], [], body⟩] :=
    hoist_aligned hoists opened made.code (fun _ => Iff.rfl) .nil
  exact ⟨_, _, body, inside, code, hoists, made.throughout [] [] [] aligned⟩

/-- A variable that is captured behind a reference, and a parameter of the same name. -/
theorem names_agree_shadowed :
    let load : String → Except Cause Module := fun path => .error (.variableNotDeclared path)
    let script := [
      Stmt.mk 1 (.declare "x" .any [.bool true] false),
      .mk 2 (.branch [.access "x" []] [
        .mk 3 (.declare "y" .any [.access "x" []] false),
        .mk 4 (.declare "x" .any [.lambda [] [.mk 4 (.call "f" [] [[.access "y" []]])]] false)]
        .nothing),
      .mk 6 (.function "f" [⟨"x", .any⟩] .any [.mk 7 (.returns (some [.access "x" []]))])]
    (compile load false script).diagnostics = [] ∧
      ∃ imports helpers body inside,
        (compile load false script).code = assemble imports helpers body ∧
          hoist script (.start load) = (some (), inside) ∧
            BlockThroughout Agrees true inside [] [] [] script body := by
  intro load script
  have accepted : (compile load false script).diagnostics = [] := rfl
  exact ⟨accepted, names_agree load false script accepted⟩

def SameDeclaration (place : Context) (trail : List Surrounding) (name : String) : Prop :=
  ∀ depth, place.scopes.foundIn? name = some depth → declaredIn? trail name = some depth

/-- A variable whose value is the variable of the same name around it means itself in the program. -/
theorem self_reference_captured :
    ¬ ∀ (load : String → Except Cause Module) (check : Bool) (script : List Stmt),
      (compile load check script).diagnostics = [] →
      ∃ imports helpers body inside,
        (compile load check script).code = assemble imports helpers body ∧
          hoist script (.start load) = (some (), inside) ∧
            BlockThroughout SameDeclaration true inside [] [] [] script body := by
  intro same
  obtain ⟨_, _, body, inside, -, hoists, throughout⟩ := same
    (fun path => .error (.variableNotDeclared path)) false
    [.mk 1 (.declare "x" .any [.bool true] false),
      .mk 2 (.branch [.bool true] [.mk 3 (.declare "x" .any [.access "x" []] false)] .nothing)] rfl
  cases hoists
  -- The derivation is followed to the reference: the second statement, its block, and the value.
  cases throughout with
  | cons run _ behind =>
  cases run
  cases behind with
  | cons run here _ =>
  cases run
  cases here with
  | cons found first _ =>
  cases first with
  | block opens inner =>
  cases inner with
  | cons _ here _ =>
  cases here with
  | cons _ first _ =>
  cases first with
  | base held =>
  obtain ⟨outside, line, bindings, alike, named, run, -⟩ := opens
  obtain rfl := List.map_eq_nil_iff.mp named
  cases run
  have code := (Target.Item.block.inj (List.mem_singleton.mp found)).2
  have outer : outside.enterBlock.scopes.foundIn? "x" = some 1 := by
    rw [Scopes.foundIn?_eq]
    show (([] : List String) :: outside.scopes.frames.map Frame.names).findIdx? _ = _
    rw [alike.names]
    rfl
  have captured := held 1 outer
  rw [code] at captured
  cases captured

end TypedScript
