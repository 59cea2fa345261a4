/-
**Canonical types.** In a normal form every alias is resolved, every array and object has a parameter
and every union is flat and has several members. A container that is written with several parameters
keeps them, though only the last one is the type of its elements. Whoever asks for the category, the
elements or the fit of a type does not see whether it is in normal form.
-/

import TypedScript.Proofs.Typing.Normal

namespace TypedScript

namespace Ty

/-- The type is the other one, a parameter or member of it, or one of those in turn. -/
inductive Occurs (node : Ty) : Ty → Prop where
  | here : Occurs node node
  | param (name : String) {params : List Ty} {param : Ty} :
    param ∈ params → Occurs node param → Occurs node (.named name params)
  | member {members : List Ty} {member : Ty} :
    member ∈ members → Occurs node member → Occurs node (.union members)

/-- What a part of a normal form is like, given the type as it is written. -/
structure Canonical (written node : Ty) : Prop where
  resolved : ∀ name, node.name? = some name → name ∉ ["int", "uint", "float", "bool", "null"]
  container : ∀ name params, node = .named name params → isContainer name = true →
    params.length = 1 ∨ ∃ several, 2 ≤ several.length ∧ params = several.map normalize ∧
      (Ty.named name several).Occurs written
  union : ∀ members, node = .union members → 2 ≤ members.length ∧
    ∀ member ∈ members, member.name? ≠ none

theorem resolveAlias_resolved (name : String) :
    resolveAlias name ∉ ["int", "uint", "float", "bool", "null"] := by
  unfold resolveAlias
  split_ifs <;> simp_all

theorem eq_of_isContainer {name : String} (container : isContainer (resolveAlias name) = true) :
    resolveAlias name = name := by
  unfold resolveAlias at container ⊢
  split_ifs at container ⊢ <;> first | rfl | exact absurd container (by decide)

theorem Canonical.of_part {whole part node : Ty} (canonical : Canonical part node)
    (inside : ∀ {node}, Occurs node part → Occurs node whole) : Canonical whole node where
  resolved := canonical.resolved
  container name params same isContainer := by
    obtain one | ⟨several, count, normal, occurs⟩ := canonical.container name params same isContainer
    · exact .inl one
    · exact .inr ⟨several, count, normal, inside occurs⟩
  union := canonical.union

theorem Canonical.alternatives {written type : Ty}
    (canonical : ∀ node, Occurs node type → Canonical written node) :
    type.alternatives ≠ [] ∧ ∀ unit ∈ type.alternatives, unit.name? ≠ none ∧
      ∀ node, Occurs node unit → Canonical written node := by
  cases type with
  | named name params =>
    exact ⟨List.cons_ne_nil _ _, List.forall_mem_singleton.mpr ⟨by simp [name?], canonical⟩⟩
  | union members =>
    obtain ⟨count, named⟩ := (canonical _ .here).union members rfl
    refine ⟨?_, fun unit listed => ⟨named unit listed, fun node inside =>
      canonical node (.member listed inside)⟩⟩
    rintro rfl
    exact absurd count (by simp)

/-- A union of several alternatives is flat, and a single one stands for itself. -/
theorem Canonical.ofAlternatives {written : Ty} {types : List Ty} (present : types ≠ [])
    (each : ∀ type ∈ types, type.name? ≠ none ∧ ∀ node, Occurs node type → Canonical written node)
    {node : Ty} (inside : Occurs node (ofAlternatives types)) : Canonical written node := by
  rcases types with _ | ⟨first, _ | ⟨second, rest⟩⟩
  · exact absurd rfl present
  · exact (each first List.mem_cons_self).2 node inside
  · cases inside with
    | here =>
      refine ⟨nofun, nofun, ?_⟩
      rintro _ ⟨⟩
      exact ⟨by simp, fun type listed => (each type listed).1⟩
    | member listed inside => exact (each _ listed).2 node inside

/-- The parameters of a container are those that are written, or `any`. -/
theorem Canonical.named (name : String) (params : List Ty) : Canonical (.named name params)
    (.named (resolveAlias name) ((filled name params).map normalize)) where
  resolved := by
    rintro _ ⟨⟩
    exact resolveAlias_resolved name
  container := by
    rintro _ _ ⟨⟩ container
    unfold filled
    split_ifs with bare
    · exact .inl rfl
    · have present : 0 < params.length :=
        List.length_pos_of_ne_nil fun empty => bare ⟨empty, container⟩
      by_cases one : params.length = 1
      · exact .inl (by rw [List.length_map, one])
      · refine .inr ⟨params, by omega, rfl, ?_⟩
        rw [eq_of_isContainer container]
        exact .here
  union := nofun

theorem Proper.canonical {type : Ty} (proper : type.Proper) :
    ∀ node, Occurs node type.normalize → Canonical type node := by
  induction proper with
  | @named name params _ ih =>
    have inner : ∀ param ∈ filled name params, ∀ node, Occurs node param.normalize →
        Canonical (.named name params) node := by
      refine forall_mem_filled ?_ (fun param listed node inside => ?_) name
      · rintro node (_ | ⟨_, listed, _⟩)
        · exact ⟨by rintro _ ⟨⟩; decide, by rintro _ _ ⟨⟩ container; contradiction, nofun⟩
        · exact absurd listed List.not_mem_nil
      · exact (ih param listed node inside).of_part (.param name listed)
    rw [normalize_named]
    rintro node (_ | ⟨_, listed, inside⟩)
    · exact .named name params
    · obtain ⟨param, known, rfl⟩ := List.mem_map.mp listed
      exact inner param known node inside
  | @union members present _ ih =>
    have each (member : Ty) (listed : member ∈ members) := Canonical.alternatives fun node inside =>
      (ih member listed node inside).of_part (.member listed)
    intro node inside
    rw [normalize_union] at inside
    refine .ofAlternatives ?_ (fun unit known => ?_) inside
    · obtain ⟨member, listed⟩ := List.exists_mem_of_ne_nil _ present
      obtain ⟨unit, known⟩ := List.exists_mem_of_ne_nil _ (each member listed).1
      exact List.ne_nil_of_mem (mem_dropRepeats.mpr
        (List.mem_flatMap.mpr ⟨_, List.mem_map_of_mem listed, known⟩))
    · obtain ⟨normal, among, within⟩ := List.mem_flatMap.mp (mem_dropRepeats.mp known)
      obtain ⟨member, listed, rfl⟩ := List.mem_map.mp among
      exact (each member listed).2 unit within

end Ty

open Ty

/-- **Normal forms are canonical.** In the normal form of a type that can be read no part is named by
an alias, no union has a union as a member or less than two members, and an array or object has one
parameter, unless it is written with several: it keeps those. -/
theorem normal_forms_canonical {text : List Char} {type : Ty} (read : read? text = some type)
    {node : Ty} (inside : node.Occurs type.normalize) : Canonical type node :=
  (formed_of_read read).1.proper.canonical node inside

/-- Aliases, a container without parameters and one with several, and a union that collapses. -/
theorem normal_forms_canonical_nested :
    let type := Ty.named "object" [.named "uint" [], .union [.named "array" [], .simple "null"]]
    let normal := Ty.named "object" [.number, .union [.arrayOf .any, .any]]
    read? "object<uint, array | null>".toList = some type ∧ type.normalize = normal ∧
      Canonical type normal ∧ Canonical type (.union [.arrayOf .any, .any]) := by
  intro type normal
  have read : read? "object<uint, array | null>".toList = some type := by decide +kernel
  have same : type.normalize = normal := by decide
  have whole := @normal_forms_canonical _ type read
  rw [same] at whole
  exact ⟨read, same, whole .here, whole (.param "object" (.tail _ List.mem_cons_self) .here)⟩

/-- **A container of several parameters keeps them**, so that not every container in a normal form
has one parameter. -/
theorem several_parameters_kept :
    ¬ ∀ (text : List Char) (type : Ty), read? text = some type → ∀ (name : String)
      (params : List Ty), (Ty.named name params).Occurs type.normalize → isContainer name = true →
        params.length = 1 := by
  intro all
  have one := all "array<int, string>".toList (.named "array" [.simple "int", .string])
    (by decide +kernel) "array" [.number, .string] (by exact .here) rfl
  contradiction

/-- **A normal form cannot be told from the type**: it is its own normal form, and has the category
and the elements of the type. Either type can be replaced by its normal form where it is asked
whether one may be stored as the other. -/
theorem normal_forms_invisible (type other : Ty) :
    type.normalize.normalize = type.normalize ∧ type.normalize.category = type.category ∧
      type.normalize.element? = type.element? ∧
      type.normalize.assignableTo other = type.assignableTo other ∧
      type.assignableTo other.normalize = type.assignableTo other ∧
      type.normalize.assignableTo other.normalize = type.assignableTo other := by
  simp only [category, element?, assignableTo, normalize_normalize, and_self]

end TypedScript
