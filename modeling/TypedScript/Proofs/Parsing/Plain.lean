/-
**Texts without braces.** Types, names and parameter lists that can be read have no braces and no
quotes in them.
-/

import TypedScript.Proofs.Parsing.Readers
import TypedScript.Proofs.Parsing.Types

namespace TypedScript

open Text

variable {text front last : List Char} {untyped : Bool}

/-! ### Types -/

/-- **The text of a type** has no braces and quotes. -/
theorem plain_of_readType {type : Ty} (read : readType text = .ok type) : Plain text := by
  unfold readType at read
  split at read
  · rename_i found
    obtain ⟨-, same, plain⟩ := Ty.formed_of_read found
    intro c member
    cases blank : isBlank c with
    | true => exact isPlain_of_isBlank blank
    | false =>
      have shown : c ∈ visible text := List.mem_filter.mpr ⟨member, by simp [blank]⟩
      rw [same] at shown
      exact plain c (List.mem_filter.mp shown).1
  · contradiction

/-! ### Names and parameters -/

theorem plain_of_isIdentifier {name : List Char} (identifier : isIdentifier name = true) :
    Plain name :=
  .word (isWordChar_of_isIdentifier identifier)

theorem splitLastBlank_eq_some (cut : splitLastBlank text = some (front, last)) :
    ∃ blank, isBlank blank = true ∧ text = front ++ blank :: last := by
  have whole : text.rdropWhile (fun c => !isBlank c) ++ text.rtakeWhile (fun c => !isBlank c) =
      text :=
    List.rdropWhile_append_rtakeWhile
  unfold splitLastBlank at cut
  dsimp only at cut
  split_ifs at cut with none
  obtain ⟨rfl, rfl⟩ := Prod.mk.inj (Option.some.inj cut)
  show ∃ blank, isBlank blank = true ∧
    text = text.take (text.length - (text.rtakeWhile fun c => !isBlank c).length - 1) ++
      blank :: text.rtakeWhile fun c => !isBlank c
  have shorter : (text.rtakeWhile fun c => !isBlank c).length ≠ text.length := none
  have present : text.rdropWhile (fun c => !isBlank c) ≠ [] := by
    intro empty
    rw [empty, List.nil_append] at whole
    exact shorter (by rw [whole])
  have blank := List.rdropWhile_last_not (fun c => !isBlank c) text present
  generalize text.rdropWhile (fun c => !isBlank c) = before at whole present blank
  generalize (text.rtakeWhile fun c => !isBlank c) = behind at whole
  obtain ⟨front, last, rfl⟩ := List.eq_nil_or_concat before |>.resolve_left present
  subst whole
  have count : (front.concat last ++ behind).length - behind.length - 1 = front.length := by
    simp only [List.length_append, List.length_concat]
    omega
  refine ⟨last, by simpa using blank, ?_⟩
  rw [count, List.concat_eq_append, List.append_assoc, List.take_left]
  rfl

theorem plain_of_splitLastBlank (cut : splitLastBlank text = some (front, last))
    (before : Plain front) (behind : Plain last) :
    Plain text := by
  obtain ⟨blank, isBlank, rfl⟩ := splitLastBlank_eq_some cut
  exact before.append (List.forall_mem_cons.mpr ⟨isPlain_of_isBlank isBlank, behind⟩)

theorem plain_of_readParameter {param : Param} (read : readParameter untyped text = .ok param) :
    Plain text := by
  obtain ⟨name, identifier, -, rfl | ⟨front, type, cut, known⟩⟩ := readParameter_eq_ok read
  · exact plain_of_isIdentifier identifier
  · exact plain_of_splitLastBlank cut (plain_of_readType known) (plain_of_isIdentifier identifier)

theorem of_pieces {kind : List Char → Prop} (nil : kind []) (comma : kind [','])
    (append : ∀ front back, kind front → kind back → kind (front ++ back)) {brackets : Brackets}
    {quote : Quote} {depth : Int} (all : ∀ piece ∈ pieces brackets quote depth text, kind piece) :
    kind text := by
  rw [← intercalate_pieces brackets quote depth text]
  cases found : pieces brackets quote depth text with
  | nil => exact nil
  | cons first others =>
    rw [found] at all
    obtain ⟨one, rest⟩ := List.forall_mem_cons.mp all
    rw [← List.nil_append (first :: others), intercalate_append_cons]
    refine append _ _ one ?_
    clear found
    induction others with
    | nil => exact nil
    | cons next behind ih =>
      obtain ⟨second, further⟩ := List.forall_mem_cons.mp rest
      exact append _ _ (append [','] next comma second)
        (ih (List.forall_mem_cons.mpr ⟨one, further⟩) further)

/-- The text of a parameter list. -/
theorem plain_of_readParameters {params : List Param}
    (read : readParameters untyped text = .ok params) : Plain text := by
  have listed (text : List Char) (member : text ∈ _) : Plain text :=
    ((readParameterList_eq_ok read).1 text member).elim fun _ => plain_of_readParameter
  have all : ∀ piece ∈ pieces parameterBrackets .outside 0 text, Plain piece := by
    refine fun piece member => Plain.of_trim ?_
    by_cases blank : trim piece = []
    · rw [blank]
      exact nofun
    · refine listed (trim piece) (List.mem_filter.mpr ⟨trim_mem_trimmedPieces member blank, ?_⟩)
      simpa using blank
  have comma : Plain [','] := List.forall_mem_singleton.mpr (by decide)
  exact of_pieces nofun comma (fun _ _ => Plain.append) all

end TypedScript
