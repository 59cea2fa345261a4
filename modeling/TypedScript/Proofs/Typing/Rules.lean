/-
**Rules of types where less is known.** A type that is not known is `any`. Whatever an operator, a
member access, an index, a parameter or a call allows for a known type, it allows for `any`, and at
most the type of the outcome becomes `any` too.

* `Ty.applyBinary_loosens`, `Ty.member_loosens`, `Ty.indexed_loosens`, `Ty.checkArguments_loosens`:
  the rules, one by one.
-/

import TypedScript.Proofs.Typing.Normal
import TypedScript.Types.Checks
import TypedScript.Types.Members
import TypedScript.Types.Operations

namespace TypedScript

variable {type looser other expected looser' result left right : Ty}
  {params types loosers : List Ty} {variadic : Bool} {table : List (String × String)}
  {category : String} {op : Operator}

/-! ### Types -/

namespace Ty

/-- The second type is the first one, or `any`. -/
def Loosens (type looser : Ty) : Prop :=
  looser = type ∨ looser = .any

theorem Loosens.refl (type : Ty) : type.Loosens type :=
  .inl rfl

theorem loosens_any (type : Ty) : type.Loosens .any :=
  .inr rfl

theorem category_any : Ty.any.category = "any" := by decide

theorem Loosens.eq_of_category (loosens : type.Loosens looser) (known : looser.category ≠ "any") :
    looser = type := by
  rcases loosens with same | rfl
  · exact same
  · exact absurd category_any known

/-! #### Assignability -/

theorem any_fits (type other : Ty) (holds : fits type other = true) : fits .any other = true := by
  induction other using Ty.induction with
  | named wanted others => exact fits_named_iff.mpr (.inr (.inl rfl))
  | union members ih =>
    obtain ⟨member, listed, found⟩ := fits_union_iff.mp holds
    exact fits_union_iff.mpr ⟨member, listed, ih member listed found⟩

theorem fits_mono {other' : Ty} (weaker : ∀ name params, fits (.named name params) other = true →
      fits (.named name params) other' = true) (type : Ty) (holds : fits type other = true) :
    fits type other' = true := by
  induction type using Ty.induction with
  | named name params => exact weaker name params holds
  | union members ih =>
    obtain ⟨member, listed, found⟩ := someFits_iff.mp holds
    exact someFits_iff.mpr ⟨member, listed, ih member listed found⟩

theorem fits_of_name_any (holds : fits type other = true) (params : List Ty) :
    fits type (.named "any" params) = true :=
  fits_mono (fun _ _ _ => rfl) type holds

theorem assignableTo_loosens (loosens : type.Loosens looser) (loosens' : expected.Loosens looser')
    (fits : type.assignableTo expected = true) :
    looser.assignableTo looser' = true := by
  have first : looser.assignableTo expected = true := by
    rcases loosens with rfl | rfl
    · exact fits
    · exact any_fits _ _ fits
  rcases loosens' with rfl | rfl
  · exact first
  · exact fits_of_name_any first []

theorem checkAssignment_eq_ok {received : Ty} :
    checkAssignment expected received = .ok () ↔ received.assignableTo expected = true := by
  unfold checkAssignment
  split <;> simp_all

theorem checkAssignment_loosens (loosens : type.Loosens looser)
    (loosens' : expected.Loosens looser') (passes : checkAssignment expected type = .ok ()) :
    checkAssignment looser' looser = .ok () :=
  checkAssignment_eq_ok.mpr
    (assignableTo_loosens loosens loosens' (checkAssignment_eq_ok.mp passes))

/-! #### Arguments -/

theorem argumentTypes_loosens (loosens : List.Forall₂ Loosens types loosers) (position : Nat)
    (passes : argumentTypes params variadic position types = []) :
    argumentTypes params variadic position loosers = [] := by
  induction loosens generalizing position with
  | nil => rfl
  | @cons type looser _ _ first _ ih =>
    rw [argumentTypes] at passes ⊢
    cases found : parameterAt? params variadic position with
    | none =>
      rw [found] at passes
      exact ih _ passes
    | some expected =>
      simp only [found] at passes ⊢
      split_ifs at passes with fits
      rw [if_pos (assignableTo_loosens first (.refl expected) fits)]
      exact ih _ passes

theorem checkArguments_loosens (loosens : List.Forall₂ Loosens types loosers)
    (passes : checkArguments params variadic types = []) :
    checkArguments params variadic loosers = [] := by
  unfold checkArguments at passes ⊢
  dsimp only at passes ⊢
  rw [← loosens.length_eq]
  split_ifs at passes with count
  rw [if_neg count]
  exact argumentTypes_loosens loosens 0 passes

end Ty

/-! #### Operations -/

theorem Operator.eq_uniformResult {result uniform : String}
    (found : resultFor? table category = some result) (same : uniformResult? table = some uniform) :
    uniform = result := by
  obtain ⟨entry, listed, rfl⟩ := Option.map_eq_some_iff.mp found
  have member := List.mem_of_find?_eq_some listed
  cases table with
  | nil => exact absurd member List.not_mem_nil
  | cons first rest =>
    simp only [uniformResult?, Option.ite_none_right_eq_some, Option.some.injEq, List.all_eq_true,
      beq_iff_eq] at same
    obtain ⟨all, rfl⟩ := same
    rcases List.mem_cons.mp member with rfl | among
    · rfl
    · exact (all entry among).symm

namespace Ty

theorem loosens_uniform {result : String}
    (found : Operator.resultFor? table category = some result) :
    (simple result).Loosens (simple ((Operator.uniformResult? table).getD "any")) := by
  cases same : Operator.uniformResult? table with
  | none => exact .inr rfl
  | some uniform =>
    rw [Operator.eq_uniformResult found same]
    exact .refl _

theorem applyUnary_any (op : Operator) :
    Ty.any.applyUnary op = .ok (simple ((Operator.uniformResult? op.unaryTable).getD "any")) := by
  unfold applyUnary
  exact if_pos category_any

/-- **When an operator may stand in front of an operand**, and what comes of it. -/
theorem applyUnary_eq_ok {operand : Ty} (applies : operand.applyUnary op = .ok result) :
    (operand.category = "any" ∧
      result = simple ((Operator.uniformResult? op.unaryTable).getD "any")) ∨
    ∃ category, Operator.resultFor? op.unaryTable operand.category = some category ∧
      result = simple category := by
  unfold applyUnary at applies
  dsimp only at applies
  split_ifs at applies with unknown
  · exact .inl ⟨unknown, (Except.ok.inj applies).symm⟩
  · split at applies
    · rename_i category found
      exact .inr ⟨category, found, (Except.ok.inj applies).symm⟩
    · contradiction

/-- **When an operator may stand between two operands**, and what comes of it. -/
theorem applyBinary_eq_ok (applies : applyBinary op left right = .ok result) :
    takesOperand op left.category = true ∧ takesOperand op right.category = true ∧
      ((left.category = "any" ∨ right.category = "any") ∧
          result = simple ((Operator.uniformResult? op.binaryTable).getD "any") ∨
        (op = .add ∨ op = .addAssign) ∧ (left.category = "string" ∨ right.category = "string") ∧
          result = .string ∨
        ∃ category, Operator.resultFor? op.binaryTable left.category = some category ∧
          result = simple category) := by
  unfold applyBinary at applies
  dsimp only at applies
  split_ifs at applies with refused unknown adds
  all_goals
    rw [Bool.not_eq_true', Bool.not_eq_false, Bool.and_eq_true] at refused
    refine ⟨refused.1, refused.2, ?_⟩
  · exact .inl ⟨by simpa using unknown, (Except.ok.inj applies).symm⟩
  · simp only [Bool.and_eq_true, Bool.or_eq_true, decide_eq_true_eq] at adds
    exact .inr (.inl ⟨adds.1, adds.2, (Except.ok.inj applies).symm⟩)
  · split at applies
    · rename_i category found
      exact .inr (.inr ⟨category, found, (Except.ok.inj applies).symm⟩)
    · contradiction

theorem applyUnary_loosens (loosens : type.Loosens looser)
    (applies : type.applyUnary op = .ok result) :
    ∃ result', looser.applyUnary op = .ok result' ∧ result.Loosens result' := by
  rcases loosens with rfl | rfl
  · exact ⟨result, applies, .refl _⟩
  · refine ⟨_, applyUnary_any op, ?_⟩
    rcases applyUnary_eq_ok applies with ⟨_, rfl⟩ | ⟨category, found, rfl⟩
    · exact .refl _
    · exact loosens_uniform found

theorem takesOperand_loosens (loosens : type.Loosens looser)
    (takes : takesOperand op type.category = true) : takesOperand op looser.category = true := by
  rcases loosens with rfl | rfl
  · exact takes
  · rw [category_any]
    rfl

theorem applyBinary_loosens (loosens : left.Loosens looser) (loosens' : right.Loosens looser')
    (applies : applyBinary op left right = .ok result) :
    ∃ result', applyBinary op looser looser' = .ok result' ∧ result.Loosens result' := by
  by_cases known : looser.category = "any" ∨ looser'.category = "any"
  · obtain ⟨first, second, gives⟩ := applyBinary_eq_ok applies
    refine ⟨simple ((Operator.uniformResult? op.binaryTable).getD "any"), ?_, ?_⟩
    · simp [applyBinary, takesOperand_loosens loosens first, takesOperand_loosens loosens' second,
        known]
    · rcases gives with ⟨_, rfl⟩ | ⟨adds, _, rfl⟩ | ⟨category, found, rfl⟩
      · exact .refl _
      · rcases adds with rfl | rfl <;> exact .inr rfl
      · exact loosens_uniform found
  · obtain ⟨first, second⟩ := not_or.mp known
    rw [loosens.eq_of_category first, loosens'.eq_of_category second]
    exact ⟨result, applies, .refl _⟩

/-! #### Members and elements -/

theorem member_any (name : String) (called : Bool) :
    Ty.any.member name called = .ok (.ofType .any) := by
  unfold member
  exact if_pos category_any

theorem member_loosens {name : String} {called : Bool} {member : Member}
    (loosens : type.Loosens looser) (found : type.member name called = .ok member) :
    ∃ member', looser.member name called = .ok member' ∧
      (member' = member ∨ member' = .ofType .any) := by
  rcases loosens with rfl | rfl
  · exact ⟨member, found, .inl rfl⟩
  · exact ⟨.ofType .any, member_any name called, .inr rfl⟩

theorem indexed_loosens {found : Ty × Ty} (loosens : type.Loosens looser)
    (indexed : type.indexed = .ok found) :
    ∃ found', looser.indexed = .ok found' ∧ found.1.Loosens found'.1 ∧
      found.2.Loosens found'.2 := by
  rcases loosens with rfl | rfl
  · exact ⟨found, indexed, .refl _, .refl _⟩
  · exact ⟨(.any, .any), by decide, loosens_any _, loosens_any _⟩

end Ty

end TypedScript
