/-
**Laws of assignability.** What may be stored where depends on the sets of alternatives only, at any
depth: the order of the members of a union, members that are repeated, a union of one member and a
union among the members of another one make no difference.
-/

import TypedScript.Proofs.Typing.Rules

namespace TypedScript

namespace Ty

/-- The types differ in how the unions in them are written: in the order of the members, in members
that are repeated, in a member that is a union itself or is the only one. -/
inductive Rearranged : Ty → Ty → Prop where
  | members {members others : List Ty} (same : ∀ member, member ∈ members ↔ member ∈ others) :
    Rearranged (.union members) (.union others)
  | only (member : Ty) : Rearranged (.union [member]) member
  | flat (front : List Ty) {inner : List Ty} (present : inner ≠ []) (back : List Ty) :
    Rearranged (.union (front ++ .union inner :: back)) (.union (front ++ inner ++ back))
  | param (name : String) (front : List Ty) {param other : Ty} (back : List Ty) :
    Rearranged param other →
      Rearranged (.named name (front ++ param :: back)) (.named name (front ++ other :: back))
  | member (front : List Ty) {member other : Ty} (back : List Ty) : Rearranged member other →
    Rearranged (.union (front ++ member :: back)) (.union (front ++ other :: back))
  | refl (type : Ty) : Rearranged type type
  | symm {type other : Ty} : Rearranged type other → Rearranged other type
  | trans {first second third : Ty} : Rearranged first second → Rearranged second third →
    Rearranged first third

theorem Proper.named_iff {name : String} {params : List Ty} :
    (Ty.named name params).Proper ↔ ∀ param ∈ params, param.Proper :=
  ⟨fun proper => by cases proper; assumption, .named name⟩

theorem Proper.union_iff {members : List Ty} : (Ty.union members).Proper ↔
    members ≠ [] ∧ ∀ member ∈ members, member.Proper :=
  ⟨fun proper => by cases proper; exact ⟨‹_›, ‹_›⟩, fun known => .union known.1 known.2⟩

theorem forall₂_replace {related : Ty → Ty → Prop} {front back others : List Ty} {old new : Ty}
    (same : ∀ other ∈ others, related old other ↔ related new other) :
    List.Forall₂ related (front ++ old :: back) others ↔
      List.Forall₂ related (front ++ new :: back) others := by
  induction front generalizing others with
  | nil =>
    cases others with
    | nil => simp
    | cons other others => simp [same other List.mem_cons_self]
  | cons param front ih =>
    cases others with
    | nil => simp
    | cons other others => simp [ih fun other member => same other (.tail _ member)]

namespace Rearranged

variable {type other : Ty}

theorem proper_iff (rearranged : Rearranged type other) : type.Proper ↔ other.Proper := by
  induction rearranged with
  | members same => simp only [Proper.union_iff, ne_eq, List.eq_nil_iff_forall_not_mem, same]
  | only member => simp [Proper.union_iff]
  | flat front present back =>
    simp only [Proper.union_iff, List.forall_mem_append, List.forall_mem_cons]
    simp [present, and_assoc]
  | param name front back _ ih =>
    simp only [Proper.named_iff, List.forall_mem_append, List.forall_mem_cons, ih]
  | member front back _ ih =>
    simp [Proper.union_iff, List.forall_mem_append, List.forall_mem_cons, -List.mem_append,
      -List.mem_cons, ih]
  | refl type => rfl
  | symm _ ih => exact ih.symm
  | trans _ _ ih ih' => exact ih.trans ih'

/-- Two types that can be stored in the same places and take the same. -/
def Alike (type other : Ty) : Prop :=
  ∀ third : Ty, third.Proper →
    (type.assignableTo third = true ↔ other.assignableTo third = true) ∧
      (third.assignableTo type = true ↔ third.assignableTo other = true)

/-- Parameters count for no more than what they may be stored as and what they take. -/
theorem Alike.param {param other : Ty} (alike : Alike param other) {name : String}
    {front back : List Ty} (proper : (Ty.named name (front ++ param :: back)).Proper)
    (proper' : (Ty.named name (front ++ other :: back)).Proper) :
    Alike (.named name (front ++ param :: back)) (.named name (front ++ other :: back)) := by
  have whole (type : Ty) : filled name (front ++ type :: back) = front ++ type :: back :=
    if_neg fun bare => absurd bare.1 (by simp)
  intro third known
  induction known with
  | @named wanted others known _ =>
    have inner := forall_mem_filled .any known wanted
    have stored := @forall₂_replace (assignableTo · · = true) front back _ _ _
      fun type listed => (alike type (inner type listed)).1
    have taken :
        List.Forall₂ (assignableTo · · = true) (filled wanted others) (front ++ param :: back) ↔
        List.Forall₂ (assignableTo · · = true) (filled wanted others) (front ++ other :: back) := by
      have flipped := @forall₂_replace (flip (assignableTo · · = true)) front back _ _ _
        fun type listed => (alike type (inner type listed)).2
      exact ⟨fun all => (flipped.mp (.flip all)).flip, fun all => (flipped.mpr (.flip all)).flip⟩
    rw [Proper.named_assignableTo_iff known, Proper.named_assignableTo_iff known,
      Proper.named_assignableTo_iff (Proper.named_iff.mp proper),
      Proper.named_assignableTo_iff (Proper.named_iff.mp proper'), whole, whole, stored,
      taken]
    simp
  | union _ _ ih =>
    rw [assignableTo_union_iff, assignableTo_union_iff, union_assignableTo_iff,
      union_assignableTo_iff]
    exact ⟨exists_congr fun member => and_congr_right fun listed => (ih member listed).1,
      exists_congr fun member => and_congr_right fun listed => (ih member listed).2⟩

/-- Rearranged types can be stored in the same places, and take the same. -/
theorem alike (rearranged : Rearranged type other) (proper : type.Proper) : Alike type other := by
  induction rearranged with
  | members same =>
    simp [Alike, union_assignableTo_iff, assignableTo_union_iff, same]
  | only member => simp [Alike, union_assignableTo_iff, assignableTo_union_iff]
  | flat front present back =>
    intro third _
    simp only [union_assignableTo_iff, assignableTo_union_iff, List.mem_append, List.mem_cons,
      or_and_right, exists_or, exists_eq_left, or_assoc, and_self]
  | param name front back rearranged ih =>
    have inner := Proper.named_iff.mp proper _ (List.mem_append_right _ List.mem_cons_self)
    exact (ih inner).param proper ((rearranged.param name front back).proper_iff.mp proper)
  | member front back _ ih =>
    intro third known
    have inner := ih (by simp_all [Proper.union_iff]) third known
    simp only [union_assignableTo_iff, assignableTo_union_iff, List.mem_append, List.mem_cons,
      or_and_right, exists_or, exists_eq_left, inner, and_self]
  | refl type => exact fun _ _ => ⟨.rfl, .rfl⟩
  | symm rearranged ih =>
    intro third known
    have back := ih (rearranged.proper_iff.mpr proper) third known
    exact ⟨back.1.symm, back.2.symm⟩
  | trans rearranged _ ih ih' =>
    intro third known
    have first := ih proper third known
    have second := ih' (rearranged.proper_iff.mp proper) third known
    exact ⟨first.1.trans second.1, first.2.trans second.2⟩

end Rearranged

theorem proper_of_read {type : Ty} (known : ∃ text, read? text = some type) : type.Proper :=
  known.elim fun _ read => (formed_of_read read).1.proper

end Ty

open Ty

/-- **Laws of assignability**, for all types that can be read. A type may be stored as itself and as
`any`, and `any` as every type. What may be stored somewhere may be stored in a union with that, and
so may a union with it. Types whose unions are sets of the same types have the same verdict. -/
theorem assignability_laws {type other third : Ty} (known : ∃ text, read? text = some type)
    (known' : ∃ text, read? text = some other) (known'' : ∃ text, read? text = some third) :
    type.assignableTo type = true ∧ type.assignableTo .any = true ∧
      Ty.any.assignableTo type = true ∧
      (type.assignableTo other = true → ∀ joined : Ty,
        (joined.Rearranged (.union [other, third]) → type.assignableTo joined = true) ∧
          (joined.Rearranged (.union [type, third]) → joined.assignableTo other = true)) ∧
      ∀ type' other' : Ty, type.Rearranged type' → other.Rearranged other' →
        type'.assignableTo other' = type.assignableTo other := by
  have proper := proper_of_read known
  have proper' := proper_of_read known'
  have both {type : Ty} (proper : type.Proper) : (Ty.union [type, third]).Proper := by
    simp [Proper.union_iff, proper, proper_of_read known'']
  refine ⟨proper.assignableTo_self, fits_of_name_any proper.assignableTo_self [],
    proper.assignableTo_of_isAny rfl, fun stored joined => ⟨fun same => ?_, fun same => ?_⟩,
    fun type' other' same same' => ?_⟩
  · refine ((same.symm.alike (both proper')) type proper).2.mp ?_
    exact assignableTo_union_iff.mpr ⟨other, List.mem_cons_self, stored⟩
  · refine ((same.symm.alike (both proper)) other proper').1.mp ?_
    exact union_assignableTo_iff.mpr ⟨type, List.mem_cons_self, stored⟩
  · rw [Bool.eq_iff_iff]
    exact ((same'.alike proper') type' (same.proper_iff.mp proper)).2.symm.trans
      ((same.alike proper) other proper').1.symm

/-- Members in another order and twice, in a parameter. -/
theorem assignability_laws_nested :
    let type := Ty.arrayOf (.union [.named "int" [], .string])
    let other := Ty.arrayOf (.union [.string, .boolean])
    let type' := Ty.arrayOf (.union [.string, .named "int" [], .string])
    read? "array<int | string>".toList = some type ∧
      read? "array<string | boolean>".toList = some other ∧ type.Rearranged type' ∧
      type.assignableTo (.union [other, .number]) = true ∧
      type'.assignableTo other = type.assignableTo other := by
  intro type other type'
  have read : read? "array<int | string>".toList = some type := by decide +kernel
  have read' : read? "array<string | boolean>".toList = some other := by decide +kernel
  have laws := @assignability_laws type other .number ⟨_, read⟩ ⟨_, read'⟩
    ⟨"number".toList, by decide +kernel⟩
  have same : type.Rearranged type' := .param "array" [] [] (.members (by simp))
  exact ⟨read, read', same, (laws.2.2.2.1 (by decide) _).1 (.refl _),
    laws.2.2.2.2 type' other same (.refl other)⟩

end TypedScript
