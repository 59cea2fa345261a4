/-
**Trimming.** What is left of a text when its blanks at the ends are gone.
-/

import Mathlib.Data.List.DropRight
import TypedScript.Text.Alphabet
import TypedScript.Text.Blank

namespace TypedScript.Text

variable {isPart : Char → Bool} {text rest : List Char} {c : Char}

instance (priority := 2000) decidableMembers {α : Type} (p : α → Prop) [DecidablePred p]
    (list : List α) : Decidable (∀ a ∈ list, p a) :=
  List.decidableBAll p list

instance (priority := 2000) decidableMember {α : Type} {p : α → Prop} [DecidablePred p]
    (value? : Option α) : Decidable (∀ a ∈ value?, p a) :=
  Option.decidableForallMem value?

section Heads

variable {good : Char → Prop} {front : List Char}

theorem forall_head_cons {c : Char} (first : good c) (rest : List Char) :
    ∀ d ∈ (c :: rest).head?, good d := by
  rintro d ⟨⟩
  exact first

theorem forall_head_append {back : List Char} (first : ∀ c ∈ front.head?, good c)
    (second : ∀ c ∈ back.head?, good c) : ∀ c ∈ (front ++ back).head?, good c := by
  cases front with
  | nil => exact second
  | cons c rest => exact first

end Heads

theorem takeWhile_append_of_ends (ends : ∀ c ∈ rest.head?, isPart c = false) :
    (text ++ rest).takeWhile isPart = text.takeWhile isPart := by
  induction text with
  | nil =>
    cases rest with
    | nil => rfl
    | cons c rest => simp [ends c rfl]
  | cons c text ih => simp [List.takeWhile_cons, ih]

/-- A text is taken off what follows it, where that does not go on in the same way. -/
theorem span_append (parts : ∀ c ∈ text, isPart c = true)
    (ends : ∀ c ∈ rest.head?, isPart c = false) :
    (text ++ rest).takeWhile isPart = text ∧ (text ++ rest).dropWhile isPart = rest := by
  rw [List.takeWhile_append_of_pos parts, List.dropWhile_append_of_pos parts]
  cases rest with
  | nil => simp
  | cons c rest => simp [ends c rfl]

def blankCodes : List Nat :=
  [9, 10, 11, 12, 13, 0x20, 0x85, 0xA0, 0x1680, 0x2000, 0x2001, 0x2002, 0x2003, 0x2004, 0x2005,
   0x2006, 0x2007, 0x2008, 0x2009, 0x200A, 0x2028, 0x2029, 0x202F, 0x205F, 0x3000]

/-- **What holds of all blanks** can be checked for their codes. -/
theorem forall_blank (good : Char → Prop) (each : ∀ code ∈ blankCodes, good (Char.ofNat code))
    (blank : isBlank c = true) : good c := by
  -- Blanks are two ranges and nine single codes.
  have controls : ∀ offset < 5, 9 + offset ∈ blankCodes := by decide
  have general : ∀ offset < 11, 0x2000 + offset ∈ blankCodes := by decide
  rw [← Char.ofNat_toNat c]
  apply each
  simp only [isBlank, Bool.or_eq_true, Bool.and_eq_true, decide_eq_true_eq, beq_iff_eq] at blank
  rcases blank with ((((((((((range | code) | code) | code) | code) | range) | code) | code) |
    code) | code) | code)
  · rw [← Nat.add_sub_of_le range.1]
    exact controls _ (by omega)
  rotate_left 4
  · rw [← Nat.add_sub_of_le range.1]
    exact general _ (by omega)
  all_goals
    rw [code]
    decide

theorem isWordChar_of_isBlank (blank : isBlank c = true) : isWordChar c = false :=
  forall_blank (isWordChar · = false) (by decide +kernel) blank

theorem trimEnd_eq_rdropWhile (text : List Char) : trimEnd text = text.rdropWhile isBlank := rfl

theorem trimStart_append (front back : List Char) :
    trimStart (front ++ back) =
      if trimStart front = [] then trimStart back else trimStart front ++ back := by
  unfold trimStart
  rw [List.dropWhile_append]
  simp only [List.isEmpty_iff]

theorem trimStart_eq_self (first : ∀ c ∈ text.head?, isBlank c = false) :
    trimStart text = text := by
  cases text with
  | nil => rfl
  | cons c rest =>
    unfold trimStart
    rw [List.dropWhile_cons, first c rfl]
    rfl

/-- Trimming at the start while characters are added at the end. -/
theorem trimStart_concat (visible : ¬ (trimStart text = [] ∧ isBlank c = true)) :
    trimStart (text ++ [c]) = trimStart text ++ [c] := by
  rw [trimStart_append]
  split_ifs with empty
  · have shown : isBlank c = false := Bool.eq_false_iff.mpr fun blank => visible ⟨empty, blank⟩
    rw [empty, List.nil_append, trimStart_eq_self (by simp [shown])]
  · rfl

theorem head_trimStart (text : List Char) : ∀ c ∈ (trimStart text).head?, isBlank c = false := by
  intro c first
  by_contra blank
  have kept := List.head?_dropWhile_not isBlank text
  unfold trimStart at first
  rw [Option.mem_def.mp first] at kept
  exact blank kept

theorem trimEnd_eq_self (last : ∀ c ∈ text.getLast?, isBlank c = false) : trimEnd text = text := by
  rw [trimEnd_eq_rdropWhile, List.rdropWhile_eq_self_iff]
  intro present blank
  have found := last _ (Option.mem_def.mpr (List.getLast?_eq_some_getLast present))
  rw [found] at blank
  cases blank

/-- A text is its trimmed text and blanks behind it. -/
theorem trimEnd_append_blanks (text : List Char) :
    ∃ blanks : List Char, (∀ c ∈ blanks, isBlank c = true) ∧ text = trimEnd text ++ blanks := by
  refine ⟨text.rtakeWhile isBlank, ?_, ?_⟩
  · intro c member
    exact List.mem_rtakeWhile_imp member
  · rw [trimEnd_eq_rdropWhile, List.rdropWhile_append_rtakeWhile]

theorem getLast_trimEnd (text : List Char) : ∀ c ∈ (trimEnd text).getLast?, isBlank c = false := by
  intro c last
  rw [trimEnd_eq_rdropWhile] at last
  have present : text.rdropWhile isBlank ≠ [] := by
    intro empty
    rw [empty] at last
    cases last
  have kept := List.rdropWhile_last_not isBlank text present
  rw [List.getLast?_eq_some_getLast present, Option.mem_def, Option.some.injEq] at last
  rw [← last]
  exact Bool.eq_false_iff.mpr kept

/-- A text that starts and ends with no blank is trimmed already. -/
theorem trim_eq_self_of_ends (first : ∀ c ∈ text.head?, isBlank c = false)
    (last : ∀ c ∈ text.getLast?, isBlank c = false) : trim text = text := by
  unfold trim
  rw [trimStart_eq_self first, trimEnd_eq_self last]

theorem head_trim (text : List Char) : ∀ c ∈ (trim text).head?, isBlank c = false := by
  intro c first
  obtain ⟨blanks, _, whole⟩ := trimEnd_append_blanks (trimStart text)
  refine head_trimStart text c ?_
  rw [whole]
  unfold trim at first
  cases front : trimEnd (trimStart text) with
  | nil =>
    rw [front] at first
    cases first
  | cons d rest =>
    rw [front] at first
    exact first

theorem getLast_trim (text : List Char) : ∀ c ∈ (trim text).getLast?, isBlank c = false :=
  getLast_trimEnd (trimStart text)

theorem trim_concat_of_not_blank (text : List Char) (shown : isBlank c = false) :
    trim (text ++ [c]) = trimStart text ++ [c] := by
  unfold trim
  rw [trimStart_concat (by simp [shown])]
  exact trimEnd_eq_self (by simp [shown])

/-- Trimming twice is trimming once. -/
theorem trim_trim (text : List Char) : trim (trim text) = trim text :=
  trim_eq_self_of_ends (head_trim text) (getLast_trim text)

end TypedScript.Text

namespace TypedScript

open Text

/-- What is left of a text when all its blanks are gone. -/
def visible (text : List Char) : List Char :=
  text.filter fun c => !isBlank c

theorem visible_append (front back : List Char) :
    visible (front ++ back) = visible front ++ visible back :=
  List.filter_append ..

theorem visible_trimStart (text : List Char) : visible (trimStart text) = visible text := by
  induction text with
  | nil => rfl
  | cons c rest ih => cases blank : isBlank c <;> simp_all [visible, trimStart]

theorem visible_blanks {text : List Char} (blank : ∀ c ∈ text, isBlank c = true) :
    visible text = [] :=
  List.filter_eq_nil_iff.mpr fun c member => by simp [blank c member]

end TypedScript
