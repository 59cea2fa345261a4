/-
**Types that can be read.** Whatever text is read as a type, it is the written form of that type with
blanks added or left out, and the type is one that can be written.
-/

import TypedScript.Proofs.Text.Braces
import TypedScript.Types.Reading

namespace TypedScript

open Text

/-- A text without braces and quotes. -/
def Plain (text : List Char) : Prop :=
  ∀ c ∈ text, isPlain c = true

namespace Plain

variable {front back text : List Char}

theorem append (first : Plain front) (second : Plain back) : Plain (front ++ back) :=
  List.forall_mem_append.mpr ⟨first, second⟩

theorem blanks (all : ∀ c ∈ text, isBlank c = true) : Plain text :=
  fun c member => isPlain_of_isBlank (all c member)

theorem word (all : ∀ c ∈ text, isWordChar c = true) : Plain text :=
  fun c member => isPlain_of_isWordChar (all c member)

theorem of_trim (inside : Plain (trim text)) : Plain text := by
  obtain ⟨before, after, first, last, whole⟩ := trim_eq text
  rw [whole]
  exact ((blanks first).append inside).append (blanks last)

end Plain

namespace Ty

/-- Induction over a type and the types in it. -/
@[elab_as_elim]
theorem induction {motive : Ty → Prop}
    (named : ∀ name params, (∀ param ∈ params, motive param) → motive (.named name params))
    (union : ∀ members, (∀ member ∈ members, motive member) → motive (.union members))
    (type : Ty) : motive type :=
  @Ty.rec motive (fun types => ∀ type ∈ types, motive type) named union (by simp)
    (fun _ _ first rest => List.forall_mem_cons.mpr ⟨first, rest⟩) type

/-! ### Texts of types -/

theorem toList_text_name (name : String) : (Ty.named name []).text.toList = name.toList := by
  rw [text]

theorem toList_text_params (name : String) (param : Ty) (params : List Ty) :
    (Ty.named name (param :: params)).text.toList =
      name.toList ++ '<' :: ((textList ", " (param :: params)).toList ++ ['>']) := by
  rw [text]
  simp only [String.toList_append, List.append_assoc]
  rfl

theorem toList_text_union (members : List Ty) :
    (Ty.union members).text.toList = (textList " | " members).toList := by
  rw [text]

theorem textList_singleton (separator : String) (type : Ty) :
    textList separator [type] = type.text := by
  rw [textList]

theorem toList_textList_cons (separator : String) (type second : Ty) (rest : List Ty) :
    (textList separator (type :: second :: rest)).toList = type.text.toList ++
      (separator.toList ++ (textList separator (second :: rest)).toList) := by
  rw [textList]
  · simp only [String.toList_append, List.append_assoc]
  · simp

/-- A name that a type can be read with. -/
structure IsName (name : List Char) : Prop where
  nonempty : name ≠ []
  letters : ∀ c ∈ name, isWordChar c = true
  noDigit : ∀ c ∈ name.head?, isAsciiDigit c = false

/-- Names that can be read, and unions of several members that are no unions. -/
inductive Formed : Ty → Prop where
  | named {name : String} {params : List Ty} (isName : IsName name.toList)
    (formed : ∀ param ∈ params, Formed param) : Formed (.named name params)
  | union {members : List Ty} (several : 2 ≤ members.length)
    (plain : ∀ member ∈ members, member.name? ≠ none)
    (formed : ∀ member ∈ members, Formed member) : Formed (.union members)

/-! ### Reading types -/

/-- Up to blanks, the text is what is written, without braces and quotes, and then the rest. -/
structure Spelled (text written rest : List Char) : Prop where
  shown : visible text = visible written ++ visible rest
  plain : Plain written

namespace Spelled

variable {text written middle rest : List Char}

theorem trans {front back : List Char} (first : Spelled text front middle)
    (second : Spelled middle back rest) : Spelled text (front ++ back) rest :=
  ⟨by rw [first.shown, second.shown, visible_append, List.append_assoc],
    first.plain.append second.plain⟩

theorem trimStart (text : List Char) : Spelled text [] (trimStart text) :=
  ⟨(visible_trimStart text).symm, nofun⟩

theorem sign {c : Char} (found : Text.trimStart text = c :: rest)
    (same : visible written = visible [c]) (plain : ∀ c ∈ written, isPlain c = true) :
    Spelled text written rest := by
  refine ⟨?_, plain⟩
  rw [(trimStart text).shown, found, same]
  exact visible_append [c] rest

theorem word (text : List Char) :
    Spelled text (text.takeWhile isWordChar) (text.dropWhile isWordChar) :=
  ⟨by rw [← visible_append, List.takeWhile_append_dropWhile],
    .word fun _ member => List.mem_takeWhile_imp member⟩

end Spelled

theorem ofMembers_spec {members : List Ty} (present : members ≠ [])
    (each : ∀ member ∈ members, member.Formed ∧ member.name? ≠ none) :
    (ofMembers members).Formed ∧ (ofMembers members).text = textList " | " members := by
  match members with
  | [member] => exact ⟨(each member List.mem_cons_self).1, (textList_singleton _ _).symm⟩
  | first :: second :: rest =>
    refine ⟨.union (by simp) (fun member listed => (each member listed).2)
      fun member listed => (each member listed).1, ?_⟩
    rw [ofMembers, text]
    simp

/-- **What is read of a type** is written that way, up to blanks. -/
theorem read_spelled (fuel : Nat) :
    (∀ text members rest, readMembers fuel text = some (members, rest) →
      Spelled text (textList " | " members).toList rest ∧ members ≠ [] ∧
        ∀ member ∈ members, member.Formed ∧ member.name? ≠ none) ∧
    (∀ text member rest, readNamed fuel text = some (member, rest) →
      Spelled text member.text.toList rest ∧ member.Formed ∧ member.name? ≠ none) ∧
    (∀ text params rest, readParams fuel text = some (params, rest) →
      Spelled text ((textList ", " params).toList ++ ['>']) rest ∧ params ≠ [] ∧
        ∀ param ∈ params, param.Formed) := by
  induction fuel with
  | zero =>
    refine ⟨?_, ?_, ?_⟩ <;>
    · intro text value rest read
      first | rw [readMembers] at read | rw [readNamed] at read | rw [readParams] at read
      contradiction
  | succ fuel ih =>
    obtain ⟨members, named, params⟩ := ih
    refine ⟨?_, ?_, ?_⟩
    · intro text found rest read
      rw [readMembers] at read
      split at read
      · contradiction
      · rename_i member more first
        obtain ⟨front, formed⟩ := named text member more first
        split at read
        · rename_i behind bar
          split at read
          · contradiction
          · rename_i others last second
            obtain ⟨rfl, rfl⟩ := Prod.mk.inj (Option.some.inj read)
            obtain ⟨back, present, each⟩ := members _ _ _ second
            obtain ⟨next, others, rfl⟩ := List.exists_cons_of_ne_nil present
            rw [toList_textList_cons]
            have sign : Spelled _ " | ".toList _ := .sign bar (by decide) (by decide)
            exact ⟨front.trans (sign.trans back), by simp, List.forall_mem_cons.mpr ⟨formed, each⟩⟩
        · obtain ⟨rfl, rfl⟩ := Prod.mk.inj (Option.some.inj read)
          rw [textList_singleton, ← List.append_nil member.text.toList]
          exact ⟨front.trans (.trimStart more), by simp, List.forall_mem_singleton.mpr formed⟩
    · intro text found rest read
      have front := (Spelled.trimStart text).trans (.word _)
      rw [readNamed] at read
      split at read
      · contradiction
      · rename_i first more name
        split_ifs at read with digit
        have isName : IsName (String.ofList ((Text.trimStart text).takeWhile isWordChar)).toList := by
          rw [String.toList_ofList]
          refine ⟨by simp [name], fun c member => List.mem_takeWhile_imp member, fun c head => ?_⟩
          rw [name] at head
          obtain rfl := Option.some.inj head
          exact Bool.eq_false_iff.mpr digit
        split at read
        · rename_i behind angle
          split at read
          · contradiction
          · rename_i others last second
            obtain ⟨rfl, rfl⟩ := Prod.mk.inj (Option.some.inj read)
            obtain ⟨back, present, each⟩ := params _ _ _ second
            obtain ⟨param, others, rfl⟩ := List.exists_cons_of_ne_nil present
            have sign : Spelled _ ['<'] _ := .sign angle rfl (by decide)
            rw [toList_text_params, String.toList_ofList]
            exact ⟨front.trans (sign.trans back), .named isName each, by simp [name?]⟩
        · obtain ⟨rfl, rfl⟩ := Prod.mk.inj (Option.some.inj read)
          have whole := front.trans (.trimStart _)
          rw [List.append_nil] at whole
          rw [toList_text_name, String.toList_ofList]
          exact ⟨whole, .named isName nofun, by simp [name?]⟩
    · intro text found rest read
      rw [readParams] at read
      split at read
      · contradiction
      · rename_i member more first
        obtain ⟨front, present, each⟩ := members text member more first
        obtain ⟨formed, same⟩ := ofMembers_spec present each
        split at read
        · rename_i behind comma
          split at read
          · contradiction
          · rename_i others last second
            obtain ⟨rfl, rfl⟩ := Prod.mk.inj (Option.some.inj read)
            obtain ⟨back, present, each⟩ := params _ _ _ second
            obtain ⟨next, others, rfl⟩ := List.exists_cons_of_ne_nil present
            have sign : Spelled _ ", ".toList _ := .sign comma (by decide) (by decide)
            rw [toList_textList_cons, same, List.append_assoc, List.append_assoc]
            exact ⟨front.trans (sign.trans back), by simp, List.forall_mem_cons.mpr ⟨formed, each⟩⟩
        · rename_i behind angle
          obtain ⟨rfl, rfl⟩ := Prod.mk.inj (Option.some.inj read)
          rw [textList_singleton, same]
          exact ⟨front.trans (.sign angle rfl (by decide)), by simp,
            List.forall_mem_singleton.mpr formed⟩
        · contradiction

/-- **A type that is read is formed, and its text is the text that was read.** -/
theorem formed_of_read {text : List Char} {type : Ty} (read : read? text = some type) :
    type.Formed ∧ visible text = visible type.text.toList ∧ Plain type.text.toList := by
  unfold read? at read
  split at read
  · contradiction
  · rename_i members rest inside
    split_ifs at read with empty
    obtain rfl := Option.some.inj read
    obtain ⟨⟨shown, plain⟩, present, each⟩ := (read_spelled _).1 _ _ _ inside
    obtain ⟨formed, same⟩ := ofMembers_spec present each
    rw [← visible_trimStart rest, List.isEmpty_iff.mp empty] at shown
    rw [same]
    exact ⟨formed, shown.trans (List.append_nil _), plain⟩

end Ty

end TypedScript
