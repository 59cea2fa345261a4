/-
**Refined declarations.** A variable that is declared as an array or object of `any` is recorded
with the type of its first value. That is a closer type than the one that is written, unless the
container has further parameters in front of its element type: those are replaced too.
-/

import Mathlib.Data.Fintype.EquivFin
import TypedScript.Proofs.Typing.Rules

namespace TypedScript

namespace Ty

variable {type stated value element param : Ty} {name : String} {outer params others : List Ty}

/-- The parameters in front of the element type. -/
def outerParams (type : Ty) : List Ty :=
  match type.normalize with
  | .named name params => if isContainer name then params.dropLast else []
  | .union _ => []

/-- Whether `any` is among the alternatives of a type. -/
def hasAny (type : Ty) : Bool :=
  type.someNamed fun name _ => name == "any"

/-! ### Containers -/

theorem element?_eq_some (found : type.element? = some element) :
    ∃ name outer, isContainer name = true ∧ type.normalize = .named name (outer ++ [element]) := by
  unfold element? at found
  split at found
  · rename_i name params normal
    obtain ⟨container, last⟩ := Option.ite_none_right_eq_some.mp found
    obtain ⟨outer, rfl⟩ := List.getLast?_eq_some_iff.mp last
    exact ⟨name, outer, container, normal⟩
  · contradiction

theorem ne_any (container : isContainer name = true) : name ≠ "any" := by
  rintro rfl
  exact absurd container (by decide)

theorem param_eq_any (normal : type.normalize = .named name params) (member : param ∈ params)
    (isAny : param.isAny = true) : ∃ inner, param = .named "any" inner := by
  have again := normalize_normalize type
  have present : params ≠ [] := List.ne_nil_of_mem member
  rw [normal, normalize_named, filled, if_neg (fun bare => present bare.1), Ty.named.injEq] at again
  have fixed : param.normalize = param :=
    List.map_inj_left.mp (again.2.trans (List.map_id _).symm) param member
  rw [Ty.isAny, fixed, beq_iff_eq] at isAny
  cases param with
  | named name inner => exact ⟨inner, by rw [Option.some.inj isAny]⟩
  | union members => contradiction

theorem outerParams_eq (container : isContainer name = true)
    (normal : type.normalize = .named name (outer ++ [element])) : type.outerParams = outer := by
  rw [outerParams, normal]
  dsimp only
  rw [if_pos container, List.dropLast_concat]

theorem fits_of_hasAny {other wider : Ty} (fit : fits type other = true)
    (isOpen : wider.hasAny = true) : fits type wider = true := by
  refine fits_mono (fun name params _ => ?_) type fit
  induction wider using Ty.induction with
  | named wanted others => exact fits_named_iff.mpr (.inl (beq_iff_eq.mp isOpen))
  | union members ih =>
    obtain ⟨member, listed, found⟩ := someNamedList_iff.mp isOpen
    exact fits_union_iff.mpr ⟨member, listed, ih member listed found⟩

theorem allFit_hasAny {opens : List Ty} (length : params.length = others.length)
    (fit : allFit params others = true) (isOpen : ∀ type ∈ opens, type.hasAny = true) :
    allFit params opens = true := by
  induction params generalizing others opens with
  | nil => rw [allFit]; simp
  | cons param rest ih =>
    obtain ⟨other, more, rfl⟩ := List.exists_cons_of_length_eq_add_one length.symm
    cases opens with
    | nil => rw [allFit]; simp
    | cons type types =>
      obtain ⟨isOpen, openRest⟩ := List.forall_mem_cons.mp isOpen
      rw [allFit, Bool.and_eq_true, Bool.or_eq_true] at fit ⊢
      exact ⟨fit.1.imp_right (fits_of_hasAny · isOpen), ih (Nat.succ.inj length) fit.2 openRest⟩

/-! ### Names that occur nowhere -/

/-- Only finitely many names fit a type without `any`. -/
theorem exists_names (type : Ty) : ∃ names : List String, ∀ name ∉ names, name ≠ "any" →
    ∀ params, fits (.named name params) type = true → type.hasAny = true := by
  induction type using Ty.induction with
  | named wanted others =>
    refine ⟨[wanted], fun name other known params fit => beq_iff_eq.mpr ?_⟩
    obtain isAny | isAny | ⟨same, _⟩ := fits_named_iff.mp fit
    · exact isAny
    · exact absurd isAny known
    · exact absurd (List.mem_singleton.mpr same) other
  | union members ih =>
    choose! names only using ih
    refine ⟨members.flatMap names, fun name other known params fit => someNamedList_iff.mpr ?_⟩
    obtain ⟨member, listed, found⟩ := fits_union_iff.mp fit
    exact ⟨member, listed, only member listed name
      (fun here => other (List.mem_flatMap.mpr ⟨member, listed, here⟩)) known params found⟩

/-- A name that stands for itself and fits a type only if everything does. -/
theorem exists_fresh (type : Ty) : ∃ name, name ≠ "any" ∧
    (named name []).normalize = named name [] ∧
      (fits (.named name []) type = true → type.hasAny = true) := by
  obtain ⟨names, only⟩ := exists_names type
  obtain ⟨name, other⟩ := Infinite.exists_notMem_finset
    (names ++ ["any", "int", "uint", "float", "bool", "null", "array", "object"]).toFinset
  simp only [List.mem_toFinset, List.mem_append, List.mem_cons, List.not_mem_nil, or_false,
    not_or] at other
  exact ⟨name, other.2.1, by simp [normalize, normalizeList, resolveAlias, isContainer, other],
    only name other.1 other.2.1 []⟩

/-! ### Rows of one type -/

/-- A container of numbers with the same type at every place in front of them. -/
def row (name : String) (count : Nat) (type : Ty) : Ty :=
  .named name (List.replicate count type ++ [number])

section Row

variable {count : Nat} (container : isContainer name = true)
include container

theorem normalize_row (normal : type.normalize = type) :
    (row name count type).normalize = row name count type := by
  have known : resolveAlias name = name := by
    rw [isContainer, Bool.or_eq_true, beq_iff_eq, beq_iff_eq] at container
    rcases container with rfl | rfl <;> decide
  have last : number.normalize = number := by decide
  rw [row, normalize_named, filled, if_neg (by simp), known]
  simp [normal, last]

theorem fits_row_iff (length : others.length = count)
    (last : fits number element = true) :
    fits (row name count type) (.named name (others ++ [element])) = true ↔
      ∀ other ∈ others, type.name? = some "any" ∨ fits type other = true := by
  subst length
  have rows : allFit (List.replicate others.length type ++ [number]) (others ++ [element]) = true ↔
      ∀ other ∈ others, type.name? = some "any" ∨ fits type other = true := by
    induction others with
    | nil => simp [allFit, last]
    | cons other rest ih => simp [allFit, List.replicate_succ, ih]
  simp [row, fits_named_iff, ne_any container, rows]

end Row

/-! ### Declarations -/

/-- **All that a declaration can record**: the annotation, or for a container of `any` the normal
form of the type of its value. -/
theorem declared_cases (stated value : Ty) : declared stated value = stated ∨
    ∃ name outer element params, isContainer name = true ∧ element.isAny = true ∧
      stated.normalize = .named name (outer ++ [element]) ∧ value.normalize = .named name params ∧
      declared stated value = value.normalize := by
  unfold declared
  dsimp only
  split
  · rename_i element inner found found'
    split_ifs with refined
    · obtain ⟨name, outer, container, normal⟩ := element?_eq_some found
      obtain ⟨other, outer', _, normal'⟩ := element?_eq_some found'
      rw [normalize_normalize] at normal normal'
      simp only [normal, normal', Bool.and_eq_true, name?, beq_iff_eq, Option.some.injEq] at refined
      obtain ⟨⟨isAny, rfl⟩, _⟩ := refined
      exact .inr ⟨name, outer, element, _, container, isAny, normal, normal', rfl⟩
    · exact .inl rfl
  · exact .inl rfl

/-- A value may be stored with its recorded type. -/
theorem declared_takes (stored : value.assignableTo stated = true) (proper : value.Proper) :
    value.assignableTo (declared stated value) = true := by
  obtain same | ⟨_, _, _, _, _, _, _, _, refined⟩ := declared_cases stated value
  · rwa [same]
  · rw [refined]
    show fits value.normalize value.normalize.normalize = true
    rw [normalize_normalize]
    exact proper.assignableTo_self

/-- What may be stored with the recorded type may be stored with an annotation that allows `any` in
front of its element type. -/
theorem stated_takes {later : Ty} (isOpen : ∀ element, stated.element? = some element →
      element.isAny = true → ∀ param ∈ stated.outerParams, param.hasAny = true)
    (stored : value.assignableTo stated = true)
    (holds : later.assignableTo (declared stated value) = true) :
    later.assignableTo stated = true := by
  obtain same | ⟨name, outer, element, params, container, isAny, normal, inner, refined⟩ :=
    declared_cases stated value
  · rwa [same] at holds
  have opens : ∀ type ∈ outer ++ [element], type.hasAny = true := by
    have front := isOpen element (by simp [element?, normal, container]) isAny
    rw [outerParams_eq container normal] at front
    refine List.forall_mem_append.mpr ⟨front, List.forall_mem_singleton.mpr ?_⟩
    obtain ⟨inner, rfl⟩ := param_eq_any normal (List.mem_append_right outer (.head [])) isAny
    rfl
  rw [refined] at holds
  unfold assignableTo at stored holds ⊢
  rw [normalize_normalize, inner] at holds
  rw [inner, normal] at stored
  rw [normal]
  have length : params.length = (outer ++ [element]).length := by
    obtain isAny | isAny | ⟨_, empty | ⟨length, _⟩⟩ := fits_named_iff.mp stored
    · exact absurd isAny (ne_any container)
    · exact absurd isAny (ne_any container)
    · exact absurd empty (by simp)
    · exact length
  refine fits_mono (fun other others holds => ?_) later.normalize holds
  rw [fits_named_iff] at holds ⊢
  obtain isAny | isAny | ⟨rfl, rfl | ⟨others, fit⟩⟩ := holds
  · exact .inl isAny
  · exact .inr (.inl isAny)
  · exact absurd length (by simp)
  · exact .inr (.inr ⟨rfl, .inr ⟨others.trans length, allFit_hasAny others fit opens⟩⟩)

/-- A container of anything in front of numbers takes the place of the annotation, and then takes a
type that no parameter without `any` takes. -/
theorem hasAny_of_safe (safe : ∀ value later : Ty, value.assignableTo stated = true →
      later.assignableTo (declared stated value) = true → later.assignableTo stated = true)
    (found : stated.element? = some element) (isAny : element.isAny = true)
    (member : param ∈ stated.outerParams) : param.hasAny = true := by
  obtain ⟨name, outer, container, normal⟩ := element?_eq_some found
  rw [outerParams_eq container normal] at member
  obtain ⟨fresh, known, fixed, only⟩ := exists_fresh param
  have last : fits number element = true := by
    obtain ⟨inner, rfl⟩ := param_eq_any normal (List.mem_append_right outer (.head [])) isAny
    rfl
  have fixed' : (row name outer.length any).normalize = row name outer.length any :=
    normalize_row container (by decide)
  have replaced : declared stated (row name outer.length any) = row name outer.length any := by
    have same : stated.normalize.element? = some element := by
      rwa [element?, normalize_normalize]
    have elements : (row name outer.length any).element? = some number := by
      rw [element?, fixed']
      simp [row, container]
    rw [declared, same, fixed', elements, normal]
    simp [isAny, row, name?, show number.isAny = false by decide]
  have stored := safe (row name outer.length any) (row name outer.length (.named fresh [])) ?_ ?_
  · rw [assignableTo, normalize_row container fixed, normal, fits_row_iff container rfl last]
      at stored
    exact only ((stored param member).resolve_left fun isAny => known (Option.some.inj isAny))
  · rw [assignableTo, fixed', normal, fits_row_iff container rfl last]
    exact fun _ _ => .inl rfl
  · rw [replaced, assignableTo, fixed', normalize_row container fixed]
    refine (fits_row_iff container List.length_replicate rfl).mpr fun other listed => .inr ?_
    rw [List.eq_of_mem_replicate listed]
    rfl

end Ty

open Ty

/-- **Recording the type of the value loosens an annotation only in front of its element type.**
The value may be stored in the variable. Whatever may be stored in the variable may be stored as the
annotation says, for all values, exactly if the element type is not `any` or all parameters in front
of it allow `any`. -/
theorem declared_never_looser (stated : Ty) :
    (∀ value : Ty, value.assignableTo stated = true → value.Proper →
      value.assignableTo (declared stated value) = true) ∧
    ((∀ value later : Ty, value.assignableTo stated = true →
        later.assignableTo (declared stated value) = true → later.assignableTo stated = true) ↔
      ∀ element, stated.element? = some element → element.isAny = true →
        ∀ param ∈ stated.outerParams, param.hasAny = true) :=
  ⟨fun _ stored proper => declared_takes stored proper, fun safe _ found isAny _ member =>
    hasAny_of_safe safe found isAny member, fun isOpen _ _ stored => stated_takes isOpen stored⟩

/-- An array of `any` that holds arrays of strings and numbers is recorded as such. -/
theorem declared_never_looser_nested :
    let value := Ty.named "array" [.any, .named "array" [.union [.string, .number]]]
    let stated := Ty.named "array" [.any, .named "null" []]
    value.Proper ∧ value.assignableTo stated = true ∧
      (∀ param ∈ stated.outerParams, param.isAny = true) ∧ declared stated value = value ∧
      value.assignableTo (declared stated value) = true ∧
      ∀ later : Ty, later.assignableTo (declared stated value) = true →
        later.assignableTo stated = true := by
  intro value stated
  have leaf (name : String) : Proper (.named name []) := .named name (by simp)
  have elements : Proper (.union [.string, .number]) :=
    .union (by simp) (List.forall_mem_cons.mpr ⟨leaf _, List.forall_mem_singleton.mpr (leaf _)⟩)
  have inner : Proper (.named "array" [.union [.string, .number]]) :=
    .named _ (List.forall_mem_singleton.mpr elements)
  have proper : value.Proper :=
    .named _ (List.forall_mem_cons.mpr ⟨leaf _, List.forall_mem_singleton.mpr inner⟩)
  have holds := declared_never_looser stated
  exact ⟨proper, by decide, by decide, by decide, holds.1 value (by decide) proper, fun later =>
    holds.2.mpr (by decide) value later (by decide)⟩

/-- **A parameter in front of the element type is lost.** An array that is declared with a number
there takes an array with a string there, once it holds an array with anything there. -/
theorem outer_parameter_lost :
    let stated := Ty.named "array" [.number, .any]
    let value := Ty.named "array" [.any, .number]
    let later := Ty.named "array" [.string, .number]
    value.assignableTo stated = true ∧ later.assignableTo (declared stated value) = true ∧
      later.assignableTo stated = false := by
  decide

end TypedScript
