/-
**The helpers that a program defines.** A program starts with the definitions of its helpers. If no
name and no literal of the script looks like the name of a helper, these are the helpers that its
statements call.
-/

import TypedScript.Proofs.Emitted.Balanced

namespace TypedScript

theorem Helper.name_apart (helper : Helper) : ∀ c ∈ helper.name.toList, isApart c = false := by
  cases helper <;> decide

theorem Helper.underscore_mem (helper : Helper) : '_' ∈ helper.name.toList := by
  cases helper <;> decide

variable {helper : Helper} {used : List Helper}

theorem Helper.not_infix_of_plain {text : List Char} (plain : '_' ∉ text) :
    ¬ helper.name.toList <:+: text :=
  fun found => plain (found.subset helper.underscore_mem)

/-- A name is not put together from two texts that a mark keeps apart. -/
theorem not_infix_append {word front back : List Char} (letters : ∀ c ∈ word, isApart c = false)
    (inFront : ¬ word <:+: front) (inBack : ¬ word <:+: back)
    (apart : (∀ c ∈ front.getLast?, isApart c = true) ∨ ∀ c ∈ back.head?, isApart c = true) :
    ¬ word <:+: front ++ back := by
  rw [List.infix_append_iff]
  rintro (found | found | ⟨start, rest, rfl, ⟨others, rfl⟩, ⟨behind, rfl⟩⟩)
  · exact inFront found
  · exact inBack found
  · rcases List.eq_nil_or_concat start with rfl | ⟨start, c, rfl⟩
    · exact inBack (List.prefix_append rest behind).isInfix
    · cases rest with
      | nil => exact inFront (by simp [List.infix_append_right])
      | cons next rest =>
        rcases apart with last | first
        · have isApart := last c (by simp)
          rw [letters c (by simp)] at isApart
          contradiction
        · have isApart := first next rfl
          rw [letters next (by simp)] at isApart
          contradiction

/-! ### Calls -/

/-- **A woven text has calls of the helpers it is made with, and no other helper's name.** Where it is
to end apart from a name, it does. -/
structure Calls (helper : Helper) (used : List Helper) (apart : Bool) (text : String) : Prop where
  called : helper ∈ used → (helper.name ++ "(").toList <:+: text.toList
  clear : helper ∉ used → ¬ helper.name.toList <:+: text.toList
  apart : apart = true → ∀ c ∈ text.toList.getLast?, isApart c = true

theorem Calls.append {more : List Helper} {apart apart' : Bool}
    {front back : String} (first : Calls helper used apart front)
    (second : Calls helper more apart' back)
    (between : apart = true ∨ ∀ c ∈ back.toList.head?, isApart c = true)
    (ends : apart' = true → apart = true ∨ back.toList ≠ []) :
    Calls helper (more ++ used) apart' (front ++ back) := by
  have whole : (front ++ back).toList = front.toList ++ back.toList := String.toList_append
  constructor <;> rw [whole]
  · intro member
    rcases List.mem_append.mp member with behind | ahead
    · exact (second.called behind).trans (List.suffix_append _ _).isInfix
    · exact (first.called ahead).trans (List.prefix_append _ _).isInfix
  · intro missing
    rw [List.mem_append, not_or] at missing
    exact not_infix_append helper.name_apart (first.clear missing.2) (second.clear missing.1)
      (between.imp_left first.apart)
  · intro isApart c member
    rw [List.getLast?_append] at member
    rcases last : back.toList.getLast? with _ | d
    · rw [last, Option.none_or] at member
      rcases ends isApart with atFront | nonempty
      · exact first.apart atFront c member
      · exact absurd (List.getLast?_eq_none_iff.mp last) nonempty
    · rw [last, Option.some_or] at member
      exact second.apart isApart c (last ▸ member)

theorem Calls.of_plain {apart : Bool} {text : String} (plain : '_' ∉ text.toList)
    (ends : apart = true → ∀ c ∈ text.toList.getLast?, isApart c = true) :
    Calls helper [] apart text :=
  ⟨fun member => absurd member List.not_mem_nil, fun _ => Helper.not_infix_of_plain plain, ends⟩

/-- A woven text has calls of the helpers it is made with, and no other helper's name. -/
theorem calls_weave (helper : Helper) :
    Weave fun used apart _ text => Calls helper used apart text where
  same whole uses := by
    constructor
    · rw [uses]
      exact whole.called
    · rw [uses]
      exact whole.clear
    · exact whole.apart
  start := .of_plain (by decide) (by decide)
  plain unmarked := .of_plain (fun member => unmarked _ member List.mem_cons_self)
    (absurd · Bool.false_ne_true)
  call other := by
    refine ⟨fun member => ?_, fun missing => ?_, fun _ => ?_⟩
    · obtain rfl := List.mem_singleton.mp member
      exact List.infix_rfl
    · cases helper <;> cases other <;> first | decide | exact absurd List.mem_cons_self missing
    · cases other <;> decide
  mark := by
    intro used apart apart' opened opened' text mark front fits
    unfold markedBy? at fits
    split_ifs at fits with marks
    simp only [Bool.and_eq_true, Bool.or_eq_true, Bool.not_eq_true', List.contains_eq_mem,
      decide_eq_false_iff_not, Option.all_eq_true, Option.any_eq_true] at marks
    obtain ⟨⟨ahead, last⟩, plain⟩ := marks
    refine front.append (.of_plain plain ?_) ahead ?_
    · intro isApart c member
      obtain ⟨d, found, holds⟩ := last.resolve_left (by simp [isApart])
      rwa [Option.mem_unique member found]
    · intro isApart
      obtain ⟨d, found, -⟩ := last.resolve_left (by simp [isApart])
      exact .inr fun none => by simp [none] at found
  spaces front indent := by
    have spaces : ∀ c ∈ (Target.padding indent).toList, c = ' ' := by
      rw [Target.padding, String.toList_ofList]
      exact fun c => List.eq_of_mem_replicate
    refine front.append (.of_plain (fun member => ?_) fun _ c member => ?_) (.inr fun c member => ?_)
      .inl
    · exact absurd (spaces _ member) (by decide)
    · rw [spaces c (List.mem_of_getLast? member)]
      rfl
    · rw [spaces c (List.mem_of_head? member)]
      rfl
  inner front whole := front.append whole (.inl rfl) fun _ => .inl rfl

/-! ### Texts -/

section Texts

variable {word text front back : List Char}

theorem infix_of_append (missing : '_' ∉ front) (found : '_' :: word <:+: front ++ back) :
    '_' :: word <:+: back := by
  induction front with
  | nil => exact found
  | cons c front ih =>
    obtain ⟨other, others⟩ := not_or.mp (mt List.mem_cons.mpr missing)
    rcases List.infix_cons_iff.mp found with first | later
    · exact absurd (List.cons_prefix_cons.mp first).1 other
    · exact ih others later

theorem prefix_of_escaped (plain : ∀ c ∈ word, c ≠ '"' ∧ c ≠ '\\')
    (found : word <+: text.flatMap Json.escapedChar ++ ['"']) : word <+: text := by
  induction word generalizing text with
  | nil => exact List.nil_prefix
  | cons d word ih =>
    obtain ⟨⟨noQuote, noEscape⟩, others⟩ := List.forall_mem_cons.mp plain
    cases text with
    | nil => exact absurd (List.cons_prefix_cons.mp found).1 noQuote
    | cons c text =>
      rw [List.flatMap_cons, List.append_assoc] at found
      rcases Json.escapedChar_cases c with ⟨written, -⟩ | ⟨letter, digits, written, -⟩
      · rw [written] at found
        obtain ⟨rfl, behind⟩ := List.cons_prefix_cons.mp found
        exact List.cons_prefix_cons.mpr ⟨rfl, ih others behind⟩
      · rw [written] at found
        exact absurd (List.cons_prefix_cons.mp found).1 noEscape

/-- Escapes do not spell the start of a helper's name. -/
theorem infix_of_escaped (plain : ∀ c ∈ '_' :: word, c ≠ '"' ∧ c ≠ '\\')
    (found : '_' :: word <:+: text.flatMap Json.escapedChar ++ ['"']) : '_' :: word <:+: text := by
  induction text with
  | nil => exact absurd (found.subset List.mem_cons_self) (by decide)
  | cons c text ih =>
    have behind (later : '_' :: word <:+: text.flatMap Json.escapedChar ++ ['"']) :
        '_' :: word <:+: c :: text := (ih later).trans (List.suffix_cons c text).isInfix
    rw [List.flatMap_cons, List.append_assoc] at found
    rcases Json.escapedChar_cases c with ⟨written, -⟩ | ⟨letter, digits, written, -, unmarked, -⟩
    · rw [written] at found
      rcases List.infix_cons_iff.mp found with first | later
      · refine (prefix_of_escaped plain ?_).isInfix
        rwa [List.flatMap_cons, written]
      · exact behind later
    · rw [written] at found
      exact behind (infix_of_append (by simpa using unmarked) found)

end Texts

/-- The name, the text or the literal that a part of a script has. -/
def Part.content? : Part → Option String
  | .text value => some value
  | part => part.written?

theorem Part.clear_written {part : Part}
    (clear : ∀ text ∈ part.content?, ¬ "__hsc_".toList <:+: text.toList) :
    ∀ text ∈ part.written?, ¬ "__hsc_".toList <:+: text.toList := by
  cases part with
  | text value =>
    rintro _ ⟨⟩ found
    rw [Json.toList_writeText] at found
    have unquoted := infix_of_append (by decide : '_' ∉ ['"']) found
    exact clear value rfl (infix_of_escaped (by decide) unquoted)
  | _ => exact clear

/-! ### Programs -/

theorem calls_definitions (missing : helper ∉ used) :
    Calls helper [] true (Helper.definitions used) := by
  have each (other : Helper) (distinct : other ≠ helper) :
      Calls helper [] true (other.definition ++ "\n") := by
    cases helper <;> cases other <;>
      first | exact absurd rfl distinct | exact ⟨by decide, fun _ => by decide, by decide⟩
  have all {texts : List String} (calls : ∀ text ∈ texts, Calls helper [] true text) :
      Calls helper [] true (String.join texts) := by
    induction texts with
    | nil => exact .of_plain (by decide) (by decide)
    | cons text rest ih =>
      obtain ⟨first, others⟩ := List.forall_mem_cons.mp calls
      rw [String.join_cons]
      exact first.append (ih others) (.inl rfl) fun _ => .inl rfl
  refine all fun text member => ?_
  obtain ⟨other, listed, rfl⟩ := List.mem_map.mp member
  refine each other ?_
  rintro rfl
  exact missing (List.contains_iff_mem.mp (List.mem_filter.mp listed).2)

theorem Calls.assemble {helpers : List Helper} {body : List Target.Stmt}
    (lines : Calls helper used false (Target.writeLines 1 body)) (missing : helper ∉ helpers) :
    Calls helper used true (assemble [] helpers body) := by
  have front : Calls helper [] true "(async () => \x7b\n// Embedded imports\n" :=
    .of_plain (by decide) (by decide)
  have ahead := front.append (calls_definitions missing) (.inl rfl) fun _ => .inl rfl
  have whole := ahead.append lines (.inl rfl) fun _ => .inl rfl
  rw [List.append_nil, List.append_nil] at whole
  have back : Calls helper [] true "\x7d)();\n" := .of_plain (by decide) (by decide)
  exact whole.append back (.inr (by decide)) fun _ => .inr (by decide)

theorem Helper.definition_infix (member : helper ∈ used) :
    helper.definition.toList <:+: (Helper.definitions used).toList := by
  have listed : helper ∈ all.filter used.contains :=
    List.mem_filter.mpr ⟨by cases helper <;> decide, List.contains_iff_mem.mpr member⟩
  unfold Helper.definitions
  rw [String.toList_join]
  refine .trans ?_ (List.infix_of_mem_flatten (List.mem_map_of_mem (List.mem_map_of_mem listed)))
  rw [String.toList_append]
  exact (List.prefix_append _ _).isInfix

/-- **A helper is defined if and only if it is called.** In the program of a script without imports
that is accepted, and in which no name, text or literal has the start of a helper's name in it, the
definition of a helper stands if and only if the statements of the program have a call of it. -/
theorem prelude_exact {load : String → Except Cause Module} {check : Bool} {script : List Stmt}
    (accepted : (compile load check script).diagnostics = [])
    (plain : ∀ stmt ∈ script, stmt.kind.isImport = false)
    (clear : ∀ part ∈ bodyParts script, ∀ text ∈ part.content?,
      ¬ "__hsc_".toList <:+: text.toList) :
    ∃ body, (generateLevel true script (.start load)).1 = some body ∧
      (compile load check script).code =
        assemble [] (generateLevel true script (.start load)).2.helpers body ∧
      ∀ helper : Helper, helper.definition.toList <:+: (compile load check script).code.toList ↔
        (helper.name ++ "(").toList <:+: (Target.writeLines 1 body).toList := by
  obtain ⟨inside, body, last, used, hoists, level, -, -, uses, made, code⟩ := compile_made accepted
  obtain ⟨_, hoists', unused⟩ := hoist_run script (.start load)
  obtain rfl : inside = _ := congrArg Prod.snd (hoists.symm.trans hoists')
  have kept : Gen.Keeps Context.SameBlock (generateLevel true script) :=
    level_keeps (generateStatements_keeps_plain plain true)
  have imports : last.imports = [] := by
    have same := (kept (.start load)).imports
    rwa [level] at same
  rw [level]
  rw [imports] at code
  refine ⟨body, rfl, code, fun helper => ?_⟩
  have known : helper ∈ last.helpers ↔ helper ∈ used := by
    rw [uses helper, unused]
    exact or_iff_right List.not_mem_nil
  have weave := calls_weave helper
  have words : Words (fun used apart _ text => Calls helper used apart text) (bodyParts script) := by
    intro part member text written
    refine ⟨fun missing => absurd missing List.not_mem_nil,
      fun _ found => Part.clear_written (clear part member) text written (.trans ?_ found),
      fun apart => absurd apart Bool.false_ne_true⟩
    cases helper <;> decide
  have lines := made.woven weave words 1
  rw [code]
  constructor
  · intro defined
    by_contra uncalled
    have missing : helper ∉ used := fun member => uncalled (lines.called member)
    refine (lines.assemble (known.not.mpr missing)).clear missing (.trans ?_ defined)
    cases helper <;> decide
  · intro called
    have member : helper ∈ used := by
      by_contra missing
      refine lines.clear missing (.trans ?_ called)
      rw [String.toList_append]
      exact (List.prefix_append _ _).isInfix
    refine (Helper.definition_infix (known.mpr member)).trans ?_
    unfold assemble
    rw [String.toList_append, String.toList_append, String.toList_append]
    exact (List.suffix_append _ _).isInfix.trans
      ((List.prefix_append _ _).isInfix.trans (List.prefix_append _ _).isInfix)

/-- Two helpers are called, one of them inside a lambda, and the others are not defined. -/
theorem prelude_exact_nested :
    let load : String → Except Cause Module := fun path => .error (.variableNotDeclared path)
    let script := [Stmt.mk 1 (.declare "o" (.objectOf .number)
      [.object ⟨.object [("a", .int 1)], .number⟩] false),
      .mk 2 (.declare "f" .func [.lambda [⟨"s", .string⟩]
        [.mk 2 (.returns (some [.call "s" [.property "toNumber"] []]))]] true),
      .mk 3 (.call "o" [.property "keys"] [])]
    (compile load false script).diagnostics = [] ∧
    (∀ stmt ∈ script, stmt.kind.isImport = false) ∧
    (∀ part ∈ bodyParts script, ∀ text ∈ part.content?, ¬ "__hsc_".toList <:+: text.toList) ∧
    Helper.all.filter (fun helper => decide (helper.definition.toList <:+:
      (compile load false script).code.toList)) = [.toNumber, .keys] := by
  intro load script
  have accepted : (compile load false script).diagnostics = [] := by decide +kernel
  have plain : ∀ stmt ∈ script, stmt.kind.isImport = false := by decide +kernel
  have clear : ∀ part ∈ bodyParts script, ∀ text ∈ part.content?,
      ¬ "__hsc_".toList <:+: text.toList := by decide +kernel
  obtain ⟨body, generated, -, exact⟩ := prelude_exact accepted plain clear
  refine ⟨accepted, plain, clear, ?_⟩
  simp only [exact]
  obtain rfl : _ = body := Option.some.inj generated
  decide +kernel

end TypedScript
