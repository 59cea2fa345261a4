/-
**Sections of an import file.** A line is described by what stands around it in the text, without
the function that cuts texts into lines. An import file is cut at the first line that is a
separator, and header, separator and code are the whole file.
-/

import TypedScript.Imports.Module
import Mathlib.Data.List.Basic

namespace TypedScript

open Text

variable {first more front line rest text header code : List Char}

/-- A line and what follows it. Its only newline is at its end, and the last line may have none. -/
inductive IsLine : (line rest : List Char) → Prop
  | broken {body : List Char} (single : '\n' ∉ body) (rest : List Char) :
      IsLine (body ++ ['\n']) rest
  | last {body : List Char} (single : '\n' ∉ body) (nonempty : body ≠ []) : IsLine body []

/-- The next character starts a line. -/
def EndsLine (text : List Char) : Prop :=
  text = [] ∨ text.getLast? = some '\n'

/-- A line of a text, with the cuts before and behind it. -/
structure HasLine (text front line rest : List Char) : Prop where
  whole : text = front ++ line ++ rest
  endsLine : EndsLine front
  isLine : IsLine line rest

/-- Three dashes, with nothing but newlines and carriage returns behind them. -/
def Separator (line : List Char) : Prop :=
  ∃ breaks, line = "---".toList ++ breaks ∧ ∀ c ∈ breaks, c = '\n' ∨ c = '\r'

/-- No line of a text is a separator. -/
def Unseparated (text : List Char) : Prop :=
  ∀ front line rest, HasLine text front line rest → ¬ Separator line

theorem isSeparator_iff : Module.isSeparator line = true ↔ Separator line := by
  rw [Module.isSeparator, beq_iff_eq, withoutBreak]
  constructor
  · intro dashes
    refine ⟨(line.reverse.takeWhile fun c => c == '\n' || c == '\r').reverse, ?_,
      fun c member => ?_⟩
    · rw [← dashes, ← List.reverse_append, List.takeWhile_append_dropWhile, List.reverse_reverse]
    · simpa using List.all_eq_true.mp List.all_takeWhile c (List.mem_reverse.mp member)
  · rintro ⟨breaks, rfl, all⟩
    rw [List.reverse_append, List.dropWhile_append_of_pos (by simpa using all)]
    rfl

theorem lines_cons {c : Char} {others : List (List Char)} (other : '\n' ≠ c)
    (behind : lines text = first :: others) : lines (c :: text) = (c :: first) :: others := by
  rw [lines, if_neg other.symm, behind]

theorem IsLine.lines_append (isLine : IsLine line rest) :
    lines (line ++ rest) = line :: lines rest := by
  cases isLine with
  | @broken body single =>
    induction body with
    | nil => rfl
    | cons c body ih =>
      obtain ⟨other, single⟩ := List.ne_and_not_mem_of_not_mem_cons single
      exact lines_cons other (ih single)
  | last single nonempty =>
    induction line with
    | nil => contradiction
    | cons c body ih =>
      obtain ⟨other, single⟩ := List.ne_and_not_mem_of_not_mem_cons single
      cases body with
      | nil => exact if_neg other.symm
      | cons d body => exact lines_cons other (ih single (List.cons_ne_nil d body))

/-- Texts are built from lines. -/
@[elab_as_elim]
theorem lines_induction {motive : List Char → Prop} (empty : motive [])
    (line : ∀ {first more}, IsLine first more → motive more → motive (first ++ more))
    (text : List Char) : motive text := by
  -- By characters, with the part of a line that was read before in front.
  suffices behind : ∀ body, '\n' ∉ body → motive (body ++ text) from behind [] List.not_mem_nil
  induction text with
  | nil =>
    intro body single
    by_cases nonempty : body = []
    · rwa [nonempty]
    · exact line (.last single nonempty) empty
  | cons c rest ih =>
    intro body single
    rw [← List.singleton_append, ← List.append_assoc]
    by_cases newline : c = '\n'
    · subst newline
      exact line (.broken single rest) (ih [] List.not_mem_nil)
    · exact ih (body ++ [c]) (by simp [single, Ne.symm newline])

theorem flatten_lines (text : List Char) : (lines text).flatten = text := by
  induction text using lines_induction with
  | empty => rfl
  | line isLine ih => rw [isLine.lines_append, List.flatten_cons, ih]

theorem IsLine.splitSections_append (isLine : IsLine line rest) :
    splitSections (line ++ rest) = if Module.isSeparator line then some ([], rest)
      else (splitSections rest).map (Prod.map (line ++ ·) id) := by
  rw [splitSections, isLine.lines_append, Module.splitLines, flatten_lines]
  rfl

theorem IsLine.unique (isLine : IsLine first more) (other : IsLine line rest)
    (same : first ++ more = line ++ rest) : line = first ∧ rest = more := by
  have cut := isLine.lines_append
  rw [same, other.lines_append] at cut
  obtain ⟨rfl, -⟩ := List.cons.inj cut
  exact ⟨rfl, (List.append_cancel_left same).symm⟩

theorem endsLine_append {body : List Char} : EndsLine (body ++ ['\n'] ++ text) ↔ EndsLine text := by
  rcases text.eq_nil_or_concat' with rfl | ⟨_, c, rfl⟩ <;> simp [EndsLine, List.getLast?_cons]

theorem not_hasLine_nil : ¬ HasLine [] front line rest := by
  rintro ⟨whole, -, isLine⟩
  cases isLine with
  | broken => simp at whole
  | last single nonempty => simp [nonempty] at whole

theorem HasLine.broken (cut : HasLine more front line rest) (isLine : IsLine first more) :
    ∃ body, '\n' ∉ body ∧ first = body ++ ['\n'] := by
  cases isLine with
  | broken single => exact ⟨_, single, rfl⟩
  | last => exact absurd cut not_hasLine_nil

theorem IsLine.hasLine (isLine : IsLine first more) : HasLine (first ++ more) [] first more :=
  ⟨rfl, .inl rfl, isLine⟩

/-- A line is the first one, or a line of what follows. -/
theorem IsLine.hasLine_iff (isLine : IsLine first more) :
    HasLine (first ++ more) front line rest ↔
      front = [] ∧ line = first ∧ rest = more ∨
        ∃ between, front = first ++ between ∧ HasLine more between line rest := by
  constructor
  · rintro ⟨whole, endsLine, later⟩
    cases front using lines_induction with
    | empty => exact .inl ⟨rfl, isLine.unique later whole⟩
    | @line _ between head =>
      cases head with
      | broken single =>
        rw [List.append_assoc, List.append_assoc] at whole
        obtain ⟨rfl, rfl⟩ := isLine.unique (.broken single _) whole
        exact .inr ⟨between, rfl, (List.append_assoc ..).symm, endsLine_append.mp endsLine, later⟩
      | last single nonempty =>
        -- Without its newline this line would go on behind `front`.
        rw [List.append_nil] at endsLine
        exact absurd (endsLine.resolve_left nonempty) (mt List.mem_of_getLast? single)
  · rintro (⟨rfl, rfl, rfl⟩ | ⟨between, rfl, cut⟩)
    · exact isLine.hasLine
    · obtain ⟨body, single, rfl⟩ := cut.broken isLine
      exact ⟨by simp [cut.whole], endsLine_append.mpr cut.endsLine, cut.isLine⟩

theorem IsLine.unseparated_iff (isLine : IsLine first more) :
    Unseparated (first ++ more) ↔ ¬ Separator first ∧ Unseparated more := by
  constructor
  · intro none
    exact ⟨none _ _ _ isLine.hasLine, fun front line rest cut =>
      none _ _ _ (isLine.hasLine_iff.mpr (.inr ⟨front, rfl, cut⟩))⟩
  · rintro ⟨plain, none⟩ front line rest cut
    rcases isLine.hasLine_iff.mp cut with ⟨-, rfl, -⟩ | ⟨between, -, later⟩
    · exact plain
    · exact none _ _ _ later

theorem splitSections_eq_none_iff : splitSections text = none ↔ Unseparated text := by
  induction text using lines_induction with
  | empty => exact iff_of_true rfl fun _ _ _ cut => absurd cut not_hasLine_nil
  | line isLine ih =>
    rw [isLine.splitSections_append, isLine.unseparated_iff, ← isSeparator_iff, ← ih]
    split_ifs with separator <;> simp [separator]

theorem splitSections_eq_some_iff :
    splitSections text = some (header, code) ↔ ∃ separator,
      HasLine text header separator code ∧ Separator separator ∧ Unseparated header := by
  induction text using lines_induction generalizing header with
  | empty =>
    refine iff_of_false (Option.some_ne_none _).symm ?_
    rintro ⟨line, cut, -⟩
    exact not_hasLine_nil cut
  | @line first more isLine ih =>
    rw [isLine.splitSections_append]
    constructor
    · split_ifs with separator <;> intro found
      · obtain ⟨rfl, rfl⟩ := Prod.mk.inj (Option.some.inj found)
        exact ⟨first, isLine.hasLine, isSeparator_iff.mp separator,
          fun _ _ _ cut => absurd cut not_hasLine_nil⟩
      · obtain ⟨⟨between, code⟩, later, same⟩ := Option.map_eq_some_iff.mp found
        obtain ⟨rfl, rfl⟩ := Prod.mk.inj same
        obtain ⟨line, cut, found, none⟩ := ih.mp later
        refine ⟨line, isLine.hasLine_iff.mpr (.inr ⟨between, rfl, cut⟩), found, ?_⟩
        obtain ⟨body, single, rfl⟩ := cut.broken isLine
        exact (IsLine.broken single _).unseparated_iff.mpr ⟨mt isSeparator_iff.mpr separator, none⟩
    · rintro ⟨line, cut, separator, none⟩
      rcases isLine.hasLine_iff.mp cut with ⟨rfl, rfl, rfl⟩ | ⟨between, rfl, later⟩
      · rw [if_pos (isSeparator_iff.mpr separator)]
      · -- The first line belongs to the header, so it is no separator.
        obtain ⟨body, single, rfl⟩ := later.broken isLine
        obtain ⟨plain, none⟩ := (IsLine.broken single between).unseparated_iff.mp none
        rw [if_neg (mt isSeparator_iff.mp plain), ih.mpr ⟨line, later, separator, none⟩]
        rfl

/-- **An import file is cut at its first separator**, and nothing of it is lost. It is not cut only
if no line is a separator. -/
theorem splitSections_exact (text : List Char) :
    (∀ header code, splitSections text = some (header, code) ↔ ∃ separator,
      HasLine text header separator code ∧ Separator separator ∧ Unseparated header) ∧
    (splitSections text = none ↔ Unseparated text) :=
  ⟨fun _ _ => splitSections_eq_some_iff, splitSections_eq_none_iff⟩

end TypedScript
