/-
**Normal forms of types.** A normal form is its own normal form, and a type fits itself, as long as
every union in it has a member.
-/

import Mathlib.Data.List.Destutter
import Mathlib.Data.List.Forall2
import Mathlib.Tactic.Tauto
import TypedScript.Proofs.Parsing.Types
import TypedScript.Types.Normal

namespace TypedScript.Ty

variable {params types members others : List Ty} {type other : Ty} {name wanted : String}

/-! ### Normal forms -/

theorem normalizeList_eq_map (types : List Ty) : normalizeList types = types.map normalize := by
  induction types with
  | nil => rfl
  | cons type rest ih => rw [normalizeList, ih, List.map_cons]

/-- The parameters of a named type; a container without any holds `any`. -/
def filled (name : String) (params : List Ty) : List Ty :=
  if params = [] ∧ isContainer (resolveAlias name) = true then [any] else params

theorem normalize_named (name : String) (params : List Ty) :
    normalize (.named name params) =
      .named (resolveAlias name) ((filled name params).map normalize) := by
  rw [normalize, normalizeList_eq_map, filled]
  cases params with
  | nil => cases isContainer (resolveAlias name) <;> rfl
  | cons param rest => simp

theorem normalize_union (members : List Ty) : normalize (.union members) =
    ofAlternatives (dropRepeats ((members.map normalize).flatMap alternatives)) := by
  rw [normalize, normalizeList_eq_map]

theorem resolveAlias_resolveAlias (name : String) :
    resolveAlias (resolveAlias name) = resolveAlias name := by
  unfold resolveAlias
  split_ifs <;> first | rfl | simp_all

theorem forall_mem_filled {good : Ty → Prop} (known : good any)
    (each : ∀ param ∈ params, good param) (name : String) :
    ∀ param ∈ filled name params, good param := by
  unfold filled
  split_ifs
  · exact List.forall_mem_singleton.mpr known
  · exact each

theorem filled_map_filled (name : String) (params : List Ty) :
    filled (resolveAlias name) ((filled name params).map normalize) =
      (filled name params).map normalize := by
  refine if_neg fun bare => ?_
  rw [resolveAlias_resolveAlias, List.map_eq_nil_iff, filled] at bare
  split_ifs at bare with empty
  · exact bare.1.elim
  · exact empty bare

theorem mem_dropRepeats : type ∈ dropRepeats types ↔ type ∈ types := by
  induction types using dropRepeats.induct with
  | case1 | case2 => rfl
  | case3 next rest ih => simp [dropRepeats, ih]
  | case4 other next rest different ih => simp [dropRepeats, different, ih]

theorem dropRepeats_eq_destutter (types : List Ty) :
    dropRepeats types = types.destutter (· ≠ ·) := by
  induction types using dropRepeats.induct with
  | case1 | case2 => rfl
  | case3 next rest ih =>
    rw [dropRepeats, if_pos rfl, ih, List.destutter_cons_cons, if_neg (not_not_intro rfl)]
    rfl
  | case4 type next rest other ih =>
    rw [dropRepeats, if_neg other, ih, List.destutter_cons_cons, if_pos other]
    rfl

def IsUnit (type : Ty) : Prop :=
  type.alternatives = [type] ∧ type.normalize = type

theorem flatMap_alternatives (units : ∀ type ∈ types, type.IsUnit) :
    types.flatMap alternatives = types := by
  induction types with
  | nil => rfl
  | cons type rest ih =>
    obtain ⟨first, others⟩ := List.forall_mem_cons.mp units
    rw [List.flatMap_cons, first.1, ih others, List.singleton_append]

theorem ofAlternatives_cases (types : List Ty) :
    (∃ type, types = [type] ∧ ofAlternatives types = type) ∨
      ofAlternatives types = .union types := by
  unfold ofAlternatives
  split
  · exact .inl ⟨_, rfl, rfl⟩
  · exact .inr rfl

theorem alternatives_ofAlternatives (units : ∀ type ∈ types, type.IsUnit) :
    (ofAlternatives types).alternatives = types := by
  obtain ⟨type, rfl, same⟩ | several := ofAlternatives_cases types
  · exact (units type (List.mem_singleton_self type)).1
  · rw [several]
    rfl

/-- **A normal form is its own normal form**, and so is each of its alternatives. -/
theorem normalize_isNormal (type : Ty) : type.normalize.normalize = type.normalize ∧
    ∀ unit ∈ type.normalize.alternatives, unit.IsUnit := by
  induction type using Ty.induction with
  | named name params ih =>
    have fixed : (normalize (.named name params)).normalize = normalize (.named name params) := by
      have inner : ∀ param ∈ filled name params, param.normalize.normalize = param.normalize :=
        forall_mem_filled (by rfl) (fun param member => (ih param member).1) name
      rw [normalize_named, normalize_named, resolveAlias_resolveAlias, filled_map_filled,
        List.map_map]
      exact congrArg _ (List.map_congr_left inner)
    refine ⟨fixed, ?_⟩
    rw [normalize_named] at fixed ⊢
    rintro _ (_ | ⟨_, ⟨⟩⟩)
    exact ⟨rfl, fixed⟩
  | union members ih =>
    rw [normalize_union]
    generalize flat : (members.map normalize).flatMap alternatives = found
    have units : ∀ unit ∈ dropRepeats found, unit.IsUnit := by
      intro unit member
      obtain ⟨normal, among, within⟩ := List.mem_flatMap.mp (flat ▸ mem_dropRepeats.mp member)
      obtain ⟨other, present, rfl⟩ := List.mem_map.mp among
      exact (ih other present).2 unit within
    rw [alternatives_ofAlternatives units]
    refine ⟨?_, units⟩
    have fixed : (dropRepeats found).map normalize = dropRepeats found :=
      (List.map_congr_left fun unit member => (units unit member).2).trans (List.map_id _)
    have single : dropRepeats (dropRepeats found) = dropRepeats found := by
      rw [dropRepeats_eq_destutter, dropRepeats_eq_destutter, List.destutter_idem]
    obtain ⟨unit, only, same⟩ | several := ofAlternatives_cases (dropRepeats found)
    · rw [same]
      exact (units unit (only ▸ List.mem_singleton_self unit)).2
    · rw [several, normalize_union, fixed, flatMap_alternatives units, single, several]

/-- **A normal form is its own normal form.** -/
theorem normalize_normalize (type : Ty) : type.normalize.normalize = type.normalize :=
  (normalize_isNormal type).1

/-! ### Fitting -/

theorem someNamedList_iff {test : String → List Ty → Bool} :
    someNamedList test types = true ↔ ∃ type ∈ types, type.someNamed test = true := by
  induction types with
  | nil => simp [someNamedList]
  | cons type rest ih => simp [someNamedList, ih]

theorem someFits_iff : someFits types other = true ↔ ∃ type ∈ types, fits type other = true := by
  induction types with
  | nil => simp [someFits]
  | cons type rest ih => simp [someFits, ih]

theorem fits_union_iff :
    fits type (.union members) = true ↔ ∃ member ∈ members, fits type member = true := by
  induction type using Ty.induction with
  | named name params => exact someNamedList_iff
  | union types ih =>
    refine someFits_iff.trans ?_
    constructor
    · rintro ⟨type, listed, found⟩
      obtain ⟨member, present, fit⟩ := (ih type listed).mp found
      exact ⟨member, present, someFits_iff.mpr ⟨type, listed, fit⟩⟩
    · rintro ⟨member, present, found⟩
      obtain ⟨type, listed, fit⟩ := someFits_iff.mp found
      exact ⟨type, listed, (ih type listed).mpr ⟨member, present, fit⟩⟩

theorem fits_named_iff :
    fits (.named name params) (.named wanted others) = true ↔ wanted = "any" ∨ name = "any" ∨
      (name = wanted ∧ (others = [] ∨ (params.length = others.length ∧
        allFit params others = true))) := by
  simp [fits, someNamed, or_assoc]

/-! ### Assignability -/

theorem normalize_union_iff (holds : Ty → Prop)
    (some : ∀ members, holds (.union members) ↔ ∃ member ∈ members, holds member)
    (members : List Ty) :
    holds (normalize (.union members)) ↔ ∃ member ∈ members, holds member.normalize := by
  have parts (type : Ty) : holds type ↔ ∃ unit ∈ type.alternatives, holds unit := by
    cases type with
    | named name params => simp [alternatives]
    | union members => exact some members
  have joined (types : List Ty) : holds (ofAlternatives types) ↔ ∃ type ∈ types, holds type := by
    obtain ⟨type, rfl, same⟩ | several := ofAlternatives_cases types
    · simp [same]
    · rw [several, some]
  rw [normalize_union, joined]
  constructor
  · rintro ⟨unit, listed, found⟩
    obtain ⟨normal, among, within⟩ := List.mem_flatMap.mp (mem_dropRepeats.mp listed)
    obtain ⟨member, present, rfl⟩ := List.mem_map.mp among
    exact ⟨member, present, (parts _).mpr ⟨unit, within, found⟩⟩
  · rintro ⟨member, present, found⟩
    obtain ⟨unit, within, found⟩ := (parts _).mp found
    exact ⟨unit, mem_dropRepeats.mpr
      (List.mem_flatMap.mpr ⟨_, List.mem_map_of_mem present, within⟩), found⟩

theorem union_assignableTo_iff :
    (Ty.union members).assignableTo other = true ↔
      ∃ member ∈ members, member.assignableTo other = true :=
  normalize_union_iff (fits · other.normalize = true) (fun _ => someFits_iff) members

theorem assignableTo_union_iff :
    type.assignableTo (.union members) = true ↔
      ∃ member ∈ members, type.assignableTo member = true :=
  normalize_union_iff (fits type.normalize · = true) (fun _ => fits_union_iff) members

/-- Every union in a type has a member, as in all types that are written. -/
inductive Proper : Ty → Prop where
  | named (name : String) {params : List Ty} (proper : ∀ param ∈ params, Proper param) :
    Proper (.named name params)
  | union {members : List Ty} (present : members ≠ [])
      (proper : ∀ member ∈ members, Proper member) : Proper (.union members)

theorem Formed.proper (formed : type.Formed) : type.Proper := by
  induction formed with
  | named _ _ ih => exact .named _ ih
  | union several _ _ ih => exact .union (by rintro rfl; simp at several) ih

namespace Proper

theorem any : Ty.any.Proper :=
  .named "any" (by simp)

/-- What means `any` may be stored as anything. -/
theorem assignableTo_of_isAny (proper : other.Proper) (isAny : type.isAny = true) :
    type.assignableTo other = true := by
  induction proper with
  | named wanted _ _ =>
    unfold Ty.isAny at isAny
    rw [assignableTo, normalize_named]
    cases normal : type.normalize with
    | named name params =>
      rw [normal, beq_iff_eq] at isAny
      exact fits_named_iff.mpr (.inr (.inl (Option.some.inj isAny)))
    | union members =>
      rw [normal] at isAny
      exact absurd isAny Bool.false_ne_true
  | union present _ ih =>
    obtain ⟨member, listed⟩ := List.exists_mem_of_ne_nil _ present
    exact assignableTo_union_iff.mpr ⟨member, listed, ih member listed⟩

theorem allFit_iff (proper : ∀ other ∈ others, other.Proper) :
    (params.map normalize).length = (others.map normalize).length ∧
        allFit (params.map normalize) (others.map normalize) = true ↔
      List.Forall₂ (fun type other => type.assignableTo other = true) params others := by
  induction params generalizing others with
  | nil => cases others <;> simp [allFit]
  | cons param rest ih =>
    cases others with
    | nil => simp
    | cons other others =>
      obtain ⟨first, more⟩ := List.forall_mem_cons.mp proper
      have same : (param.normalize.name? == some "any" || fits param.normalize other.normalize) =
          param.assignableTo other := by
        cases isAny : param.isAny with
        | true =>
          rw [first.assignableTo_of_isAny isAny]
          exact Bool.or_eq_true_iff.mpr (.inl isAny)
        | false => exact (congrArg (· || _) isAny).trans (Bool.false_or _)
      rw [List.forall₂_cons, ← ih more, List.map_cons, List.map_cons, allFit, same]
      simp
      tauto

/-- **When a named type may be stored as another one.** -/
theorem named_assignableTo_iff (proper : ∀ other ∈ others, other.Proper) :
    (Ty.named name params).assignableTo (.named wanted others) = true ↔
      resolveAlias wanted = "any" ∨ resolveAlias name = "any" ∨
        (resolveAlias name = resolveAlias wanted ∧ (filled wanted others = [] ∨
          List.Forall₂ (fun type other => type.assignableTo other = true) (filled name params)
            (filled wanted others))) := by
  rw [← allFit_iff (forall_mem_filled .any proper wanted), assignableTo, normalize_named,
    normalize_named, fits_named_iff, List.map_eq_nil_iff]

/-- **A proper type may be stored as itself.** -/
theorem assignableTo_self (proper : type.Proper) : type.assignableTo type = true := by
  induction proper with
  | named name proper ih =>
    exact (named_assignableTo_iff proper).mpr (.inr (.inr ⟨rfl, .inr
      (List.forall₂_same.mpr (forall_mem_filled (by decide) ih name))⟩))
  | union present _ ih =>
    obtain ⟨member, listed⟩ := List.exists_mem_of_ne_nil _ present
    exact union_assignableTo_iff.mpr
      ⟨member, listed, assignableTo_union_iff.mpr ⟨member, listed, ih member listed⟩⟩

end Proper

end TypedScript.Ty
