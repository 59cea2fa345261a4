/-
**Written types.** The text of a type is read as that type, whatever follows it, and the passes of
statements and parameter lists take it in whole.

* `TypeText.passable`, `TypeText.parameterPieces`: what the passes see in the text of a type.
-/

import TypedScript.Proofs.Parsing.Types
import TypedScript.Proofs.Printing.Shapes
import TypedScript.Syntax.Blocks

namespace TypedScript

open Text

variable {name : String} {types : List Ty} {type : Ty} {rest : List Char} {depth : Int}
  {param : Param} {text : List Char}

theorem word_of_isTypeName (isName : isTypeName name = true) : Word name.toList := by
  rw [isTypeName, Bool.and_eq_true] at isName
  exact word_of_isAsciiName isName.1

/-- The texts of types. A comma stands only inside of brackets. -/
inductive TypeText : Bool → List Char → Prop
  | word (deep : Bool) {name : List Char} (isWord : Word name) : TypeText deep name
  | params (deep : Bool) {name inner : List Char} (isWord : Word name)
      (inside : TypeText true inner) : TypeText deep (name ++ '<' :: (inner ++ ['>']))
  | bar {deep : Bool} {front back : List Char} (first : TypeText deep front)
      (second : TypeText deep back) : TypeText deep (front ++ (" | ".toList ++ back))
  | comma {front back : List Char} (first : TypeText true front) (second : TypeText true back) :
      TypeText true (front ++ (", ".toList ++ back))

theorem typesWritable_iff :
    typesWritable types = true ↔ ∀ type ∈ types, type.isWritable = true := by
  induction types with
  | nil => simp [typesWritable]
  | cons type rest ih => simp [typesWritable, ih]

theorem membersWritable_iff {members : List Ty} : membersWritable members = true ↔
    ∀ member ∈ members, member.name? ≠ none ∧ member.isWritable = true := by
  have named (type : Ty) : type.isUnion = false ↔ type.name? ≠ none := by
    cases type <;> simp [Ty.isUnion, Ty.name?]
  induction members with
  | nil => simp [membersWritable]
  | cons member rest ih => simp [membersWritable, ih, named]

/-- What can be written can be read. -/
theorem Ty.formed_of_isWritable (writable : type.isWritable = true) : type.Formed := by
  induction type using Ty.induction with
  | named name params ih =>
    rw [Ty.isWritable, Bool.and_eq_true, typesWritable_iff] at writable
    have word := word_of_isTypeName writable.1
    refine .named ⟨word.nonempty, word.letters, fun c head => not_digit_of_start (word.first c head)⟩
      fun param listed => ih param listed (writable.2 param listed)
  | union members ih =>
    rw [Ty.isWritable, Bool.and_eq_true, decide_eq_true_eq, membersWritable_iff] at writable
    exact .union writable.1 (fun member listed => (writable.2 member listed).1)
      fun member listed => ih member listed (writable.2 member listed).2

theorem Ty.textList_joined {holds : List Char → Prop} {separator : String}
    (join : ∀ {front back}, holds front → holds back → holds (front ++ (separator.toList ++ back)))
    (present : types ≠ []) (each : ∀ type ∈ types, holds type.text.toList) :
    holds (textList separator types).toList := by
  induction types with
  | nil => exact absurd rfl present
  | cons type rest ih =>
    obtain ⟨first, others⟩ := List.forall_mem_cons.mp each
    cases rest with
    | nil => rwa [textList_singleton]
    | cons second rest =>
      rw [toList_textList_cons]
      exact join first (ih (by simp) others)

theorem Ty.typeText (deep : Bool) (writable : type.isWritable = true) :
    TypeText deep type.text.toList := by
  induction type using Ty.induction generalizing deep with
  | named name params ih =>
    rw [Ty.isWritable, Bool.and_eq_true, typesWritable_iff] at writable
    have word := word_of_isTypeName writable.1
    cases params with
    | nil =>
      rw [Ty.toList_text_name]
      exact .word deep word
    | cons param params =>
      rw [Ty.toList_text_params]
      exact .params deep word (textList_joined .comma (by simp) fun param listed =>
        ih param listed true (writable.2 param listed))
  | union members ih =>
    rw [Ty.isWritable, Bool.and_eq_true, decide_eq_true_eq, membersWritable_iff] at writable
    rw [Ty.toList_text_union]
    refine textList_joined .bar (by rintro rfl; simp at writable) fun member listed => ?_
    exact ih member listed deep (writable.2 member listed).2

namespace TypeText

variable {deep : Bool} {text : List Char}

theorem nonempty (isType : TypeText deep text) : text ≠ [] := by
  induction isType with
  | word _ isWord => exact isWord.nonempty
  | _ => simp

theorem first (isType : TypeText deep text) :
    ∀ c ∈ text.head?, (isAsciiLetter c || c == '_') = true := by
  induction isType with
  | word _ isWord => exact isWord.first
  | params _ isWord _ _ =>
    rw [List.head?_append_of_ne_nil _ isWord.nonempty]
    exact isWord.first
  | bar first _ ih _ | comma first _ ih _ =>
    rw [List.head?_append_of_ne_nil _ first.nonempty]
    exact ih

theorem shown (isType : TypeText deep text) : Shown text := by
  induction isType with
  | word _ isWord => exact isWord.shown
  | params _ isWord _ _ =>
    have closer : Shown ['>'] := .of_all (by simp) (by decide)
    exact isWord.shown.join closer ('<' :: _)
  | bar _ _ ihFirst ihSecond | comma _ _ ihFirst ihSecond => exact ihFirst.join ihSecond _

theorem not_joiner {c : Char} (start : (isAsciiLetter c || c == '_') = true) : c ∉ joiners := by
  intro joins
  have each : ∀ c ∈ joiners, (isAsciiLetter c || c == '_') = false := by decide
  rw [each c joins] at start
  contradiction

/-- A written type with something behind it that forms nothing with its last bracket. -/
theorem passable (isType : TypeText deep text) {d : Char} (apart : d ∉ joiners)
    (others : Passable .list (d :: rest)) : Passable .list (text ++ d :: rest) := by
  induction isType generalizing d rest with
  | word _ isWord => exact (isWord.passable .list).append others
  | @params _ name inner isWord inside ih =>
    have closer : Passable .list ('>' :: d :: rest) := .sign (by decide) apart others
    have opener : Passable .list ('<' :: (inner ++ '>' :: d :: rest)) := by
      obtain ⟨c, more, rfl⟩ := List.exists_cons_of_ne_nil inside.nonempty
      exact .sign (by decide) (not_joiner (inside.first c rfl)) (ih (by decide) closer)
    have whole := (isWord.passable .list).append opener
    simpa only [List.append_assoc, List.cons_append, List.nil_append] using whole
  | bar _ _ ihFirst ihSecond =>
    have bar : Passable .list ('|' :: ' ' :: (_ ++ d :: rest)) :=
      .sign (by decide) (by decide) (.quiet rfl (ihSecond apart others))
    rw [List.append_assoc, List.append_assoc]
    exact ihFirst (by decide) (.quiet rfl bar)
  | comma _ _ ihFirst ihSecond =>
    rw [List.append_assoc, List.append_assoc]
    exact ihFirst (by decide) (.quiet rfl (.quiet rfl (ihSecond apart others)))

theorem chars (isType : TypeText deep text) :
    ∀ c ∈ text, (isAsciiWord c || ['<', '>', ',', '|', ' '].contains c) = true := by
  induction isType with
  | word _ isWord =>
    intro c member
    rw [isWord.word c member, Bool.true_or]
  | params _ isWord _ ih =>
    intro c member
    simp only [List.mem_append, List.mem_cons, List.not_mem_nil, or_false] at member
    rcases member with inName | rfl | inside | rfl
    · rw [isWord.word c inName, Bool.true_or]
    · rfl
    · exact ih c inside
    · rfl
  | bar _ _ ihFirst ihSecond | comma _ _ ihFirst ihSecond =>
    exact List.forall_mem_append.mpr
      ⟨ihFirst, List.forall_mem_append.mpr ⟨by decide, ihSecond⟩⟩

end TypeText

/-! ### Types in parameter lists -/

theorem parameterPieces_word {name : List Char} (isWord : Word name) (depth : Int)
    (rest : List Char) :
    pieces parameterBrackets .outside depth (name ++ rest) =
      name.foldr consPiece (pieces parameterBrackets .outside depth rest) := by
  refine scan_plain name (fun c member rest => ?_) rest
  have each : ∀ c ∈ ['<', '(', '[', '>', ')', ']', ','], isAsciiWord c = false := by decide
  have other : c ∉ ['<', '(', '[', '>', ')', ']', ','] := fun special => by
    have isWord := isWord.word c member
    rw [each c special] at isWord
    contradiction
  simp only [List.mem_cons, List.not_mem_nil, or_false, not_or] at other
  refine pieces_plain ?_ (fun quotes => absurd quotes (by decide)) (.inl other.2.2.2.2.2.2) rest
  simp [Brackets.change, parameterBrackets, other]

theorem parameterPieces_separator {separator : List Char}
    (flat : ∀ c ∈ separator, parameterBrackets.change c = 0) (uncut : ',' ∉ separator ∨ depth ≠ 0)
    (rest : List Char) :
    pieces parameterBrackets .outside depth (separator ++ rest) =
      separator.foldr consPiece (pieces parameterBrackets .outside depth rest) := by
  refine scan_plain separator (fun c member rest => ?_) rest
  exact pieces_plain (flat c member) (fun quotes => absurd quotes (by decide))
    (uncut.imp_left (ne_of_mem_of_not_mem member)) rest

theorem TypeText.parameterPieces {deep : Bool} (isType : TypeText deep text) (least : 0 ≤ depth)
    (inAngles : deep = true → depth ≠ 0) (rest : List Char) :
    pieces parameterBrackets .outside depth (text ++ rest) =
      text.foldr consPiece (pieces parameterBrackets .outside depth rest) := by
  induction isType generalizing depth rest with
  | word _ isWord => exact parameterPieces_word isWord depth rest
  | @params _ name inner isWord _ ih =>
    have opener : pieces parameterBrackets .outside depth ('<' :: (inner ++ '>' :: rest)) =
        consPiece '<' (pieces parameterBrackets .outside (depth + 1) (inner ++ '>' :: rest)) := rfl
    have closer : pieces parameterBrackets .outside (depth + 1) ('>' :: rest) =
        consPiece '>' (pieces parameterBrackets .outside (depth + 1 + -1) rest) := rfl
    have back : depth + 1 + -1 = depth := by omega
    rw [List.append_assoc, List.cons_append, List.append_assoc, List.singleton_append,
      parameterPieces_word isWord, opener, ih (by omega) (by omega), closer, back]
    simp only [List.foldr_append, List.foldr_cons, List.foldr_nil]
  | bar _ _ ihFirst ihSecond =>
    rw [List.append_assoc, List.append_assoc, ihFirst least inAngles,
      parameterPieces_separator (by decide) (.inl (by decide)), ihSecond least inAngles,
      List.foldr_append, List.foldr_append]
  | comma _ _ ihFirst ihSecond =>
    rw [List.append_assoc, List.append_assoc, ihFirst least inAngles,
      parameterPieces_separator (by decide) (.inr (inAngles rfl)), ihSecond least inAngles,
      List.foldr_append, List.foldr_append]

/-! ### Reading types -/

theorem trimStart_trimStart (text : List Char) : trimStart (trimStart text) = trimStart text :=
  trimStart_eq_self (head_trimStart text)

theorem trimStart_of_shown (shown : Shown text) (rest : List Char) :
    trimStart (text ++ rest) = text ++ rest := by
  obtain ⟨c, more, rfl⟩ := List.exists_cons_of_ne_nil shown.nonempty
  exact trimStart_eq_self fun d head => shown.first d head

namespace Ty

/-- What may follow a type: the word ends, and no parameters or further members come. -/
structure Ends (rest : List Char) : Prop where
  word : ∀ c ∈ rest.head?, isWordChar c = false
  noParams : ∀ c ∈ (trimStart rest).head?, c ≠ '<'

def ReadsNamed (type : Ty) : Prop :=
  ∀ fuel rest, 3 * type.text.toList.length ≤ fuel → Ends rest →
    ∃ after, readNamed fuel (type.text.toList ++ rest) = some (type, after) ∧
      trimStart after = trimStart rest

/-- Members with bars between them are read in front of anything but another bar. -/
def ReadsMembers (members : List Ty) : Prop :=
  ∀ fuel rest, 3 * (textList " | " members).toList.length + 1 ≤ fuel → Ends rest →
    (∀ c ∈ (trimStart rest).head?, c ≠ '|') →
    ∃ after, readMembers fuel ((textList " | " members).toList ++ rest) = some (members, after) ∧
      trimStart after = trimStart rest

/-- Parameters are read up to the bracket behind them. -/
def ReadsParams (params : List Ty) : Prop :=
  ∀ fuel rest, 3 * (textList ", " params).toList.length + 2 ≤ fuel →
    readParams fuel ((textList ", " params).toList ++ '>' :: rest) = some (params, rest)

theorem readMembers_blank (fuel : Nat) (text : List Char) :
    readMembers fuel (' ' :: text) = readMembers fuel text := by
  cases fuel with
  | zero => rfl
  | succ fuel =>
    have same : readNamed fuel (' ' :: text) = readNamed fuel text := by
      cases fuel with
      | zero => rfl
      | succ fuel => rfl
    rw [readMembers, readMembers, same]

theorem readParams_blank (fuel : Nat) (text : List Char) :
    readParams fuel (' ' :: text) = readParams fuel text := by
  cases fuel with
  | zero => rfl
  | succ fuel => rw [readParams, readParams, readMembers_blank]

theorem readNamed_word (isName : IsName name.toList) (fuel : Nat)
    (ends : ∀ c ∈ rest.head?, isWordChar c = false) :
    readNamed (fuel + 1) (name.toList ++ rest) =
      match trimStart rest with
      | '<' :: more =>
        match readParams fuel more with
        | none => none
        | some (params, rest) => some (.named name params, rest)
      | rest => some (.named name [], rest) := by
  have letters : Letters name.toList := ⟨isName.nonempty, isName.letters⟩
  obtain ⟨first, more, same⟩ := List.exists_cons_of_ne_nil isName.nonempty
  have noDigit := isName.noDigit first (by rw [same]; rfl)
  have taken : (name.toList ++ rest).takeWhile isWordChar = first :: more := by
    rw [← same]
    exact letters.takeWhile ends
  have named : String.ofList (first :: more) = name := by rw [← same, String.ofList_toList]
  rw [readNamed, trimStart_of_shown letters.shown, letters.dropWhile ends, taken]
  refine (if_neg (by rw [noDigit]; decide)).trans ?_
  exact named ▸ rfl

theorem readsNamed_of_params (isName : IsName name.toList) {params : List Ty}
    (reads : params ≠ [] → ReadsParams params) : ReadsNamed (.named name params) := by
  have present : 0 < name.toList.length := List.length_pos_of_ne_nil isName.nonempty
  intro fuel rest enough ends
  cases params with
  | nil =>
    rw [toList_text_name] at enough ⊢
    obtain ⟨fuel, rfl⟩ : ∃ less, fuel = less + 1 := ⟨fuel - 1, by omega⟩
    refine ⟨trimStart rest, ?_, trimStart_trimStart rest⟩
    rw [readNamed_word isName fuel ends.word]
    split
    · rename_i more found
      exact absurd rfl (ends.noParams '<' (by rw [found]; rfl))
    · rfl
  | cons param params =>
    rw [toList_text_params] at enough ⊢
    simp only [List.length_append, List.length_cons, List.length_nil] at enough
    obtain ⟨fuel, rfl⟩ : ∃ less, fuel = less + 1 := ⟨fuel - 1, by omega⟩
    refine ⟨rest, ?_, rfl⟩
    have inside := reads (by simp) fuel rest (by omega)
    rw [List.append_assoc, List.cons_append, List.append_assoc, List.singleton_append,
      readNamed_word isName fuel (by simp; decide)]
    show (match readParams fuel ((textList ", " (param :: params)).toList ++ '>' :: rest) with
      | none => none
      | some (params, rest) => some (Ty.named name params, rest)) = _
    rw [inside]

theorem readsMembers_of_named {members : List Ty} (nonempty : members ≠ [])
    (reads : ∀ member ∈ members, ReadsNamed member) : ReadsMembers members := by
  induction members with
  | nil => exact absurd rfl nonempty
  | cons member rest ih =>
    intro fuel text enough ends noBar
    have first := reads member List.mem_cons_self
    cases rest with
    | nil =>
      rw [textList_singleton] at enough ⊢
      obtain ⟨fuel, rfl⟩ : ∃ less, fuel = less + 1 := ⟨fuel - 1, by omega⟩
      obtain ⟨after, read, same⟩ := first fuel text (by omega) ends
      refine ⟨trimStart text, ?_, trimStart_trimStart text⟩
      rw [readMembers, read]
      simp only [same]
      split
      · rename_i more found
        exact absurd rfl (noBar '|' (by rw [found]; rfl))
      · rfl
    | cons second rest =>
      rw [toList_textList_cons] at enough ⊢
      have three : " | ".toList.length = 3 := rfl
      simp only [List.length_append, three] at enough
      obtain ⟨fuel, rfl⟩ : ∃ less, fuel = less + 1 := ⟨fuel - 1, by omega⟩
      have bar (others : List Char) :
          trimStart (" | ".toList ++ others) = '|' :: ' ' :: others := rfl
      have behind (others : List Char) : Ends (" | ".toList ++ others) := by
        refine ⟨forall_head_cons (by decide) _, ?_⟩
        rw [bar]
        exact forall_head_cons (by decide) _
      obtain ⟨after, read, same⟩ := first fuel
        (" | ".toList ++ ((textList " | " (second :: rest)).toList ++ text)) (by omega) (behind _)
      obtain ⟨last, readOthers, sameLast⟩ := ih (by simp)
        (fun other member => reads other (.tail _ member)) fuel text (by omega) ends noBar
      refine ⟨last, ?_, sameLast⟩
      rw [List.append_assoc, List.append_assoc, readMembers, read]
      simp only [same, bar, readMembers_blank]
      rw [readOthers]

def members : Ty → List Ty
  | .union members => members
  | type => [type]

theorem textList_members (type : Ty) : textList " | " type.members = type.text := by
  cases type with
  | named name params => rw [members, textList_singleton]; simp
  | union members => rw [Ty.members, text]

theorem ofMembers_members {type : Ty} (formed : type.Formed) : ofMembers type.members = type := by
  cases formed with
  | named => rfl
  | @union types several =>
    rcases types with _ | ⟨first, _ | ⟨second, rest⟩⟩
    · simp at several
    · simp at several
    · rfl

theorem ends_sign {sign : Char} (isSign : sign ∈ [',', '>']) (rest : List Char) :
    Ends (sign :: rest) ∧ trimStart (sign :: rest) = sign :: rest ∧ sign ≠ '|' := by
  have each : ∀ sign ∈ [',', '>'], isWordChar sign = false ∧ isBlank sign = false ∧ sign ≠ '<' ∧
      sign ≠ '|' := by decide
  obtain ⟨noWord, shown, noParams, noBar⟩ := each sign isSign
  have same : trimStart (sign :: rest) = sign :: rest :=
    trimStart_eq_self (forall_head_cons shown rest)
  refine ⟨⟨forall_head_cons noWord rest, ?_⟩, same, noBar⟩
  rw [same]
  exact forall_head_cons (by exact noParams) rest

theorem readsParams_cons {type : Ty} (formed : type.Formed)
    (reads : ReadsMembers type.members) {rest : List Ty} (others : rest ≠ [] → ReadsParams rest) :
    ReadsParams (type :: rest) := by
  unfold ReadsMembers at reads
  rw [textList_members] at reads
  -- The type is read up to the sign behind it.
  have first (fuel : Nat) {sign : Char} (isSign : sign ∈ [',', '>']) (rest : List Char)
      (enough : 3 * type.text.toList.length + 1 ≤ fuel) :
      ∃ after, readMembers fuel (type.text.toList ++ sign :: rest) = some (type.members, after) ∧
        trimStart after = sign :: rest := by
    obtain ⟨ends, same, noBar⟩ := ends_sign isSign rest
    obtain ⟨after, read, trimmed⟩ := reads fuel (sign :: rest) enough ends (by
      rw [same]
      exact forall_head_cons (by exact noBar) rest)
    exact ⟨after, read, trimmed.trans same⟩
  intro fuel text enough
  cases rest with
  | nil =>
    rw [textList_singleton] at enough ⊢
    obtain ⟨fuel, rfl⟩ : ∃ less, fuel = less + 1 := ⟨fuel - 1, by omega⟩
    obtain ⟨after, read, same⟩ := first fuel (by decide : '>' ∈ [',', '>']) text (by omega)
    rw [readParams, read]
    simp only [same, ofMembers_members formed]
  | cons second rest =>
    have two : ", ".toList.length = 2 := rfl
    rw [toList_textList_cons] at enough ⊢
    simp only [List.length_append, two] at enough
    obtain ⟨fuel, rfl⟩ : ∃ less, fuel = less + 1 := ⟨fuel - 1, by omega⟩
    obtain ⟨after, read, same⟩ := first fuel (by decide : ',' ∈ [',', '>'])
      (' ' :: ((textList ", " (second :: rest)).toList ++ '>' :: text)) (by omega)
    have behind := others (by simp) fuel text (by omega)
    rw [List.append_assoc, List.append_assoc, readParams]
    show (match readMembers fuel (type.text.toList ++
        ',' :: ' ' :: ((textList ", " (second :: rest)).toList ++ '>' :: text)) with
      | none => none
      | some (members, rest) => _) = _
    rw [read]
    simp only [same, readParams_blank, behind, ofMembers_members formed]

theorem readsParams {params : List Ty} (formed : ∀ param ∈ params, param.Formed)
    (reads : ∀ param ∈ params, ReadsMembers param.members) (present : params ≠ []) :
    ReadsParams params := by
  induction params with
  | nil => exact absurd rfl present
  | cons param rest ih =>
    obtain ⟨first, others⟩ := List.forall_mem_cons.mp formed
    obtain ⟨readsFirst, readsOthers⟩ := List.forall_mem_cons.mp reads
    exact readsParams_cons first readsFirst (ih others readsOthers)

theorem reads_of_formed {type : Ty} (formed : type.Formed) :
    ReadsMembers type.members ∧ (type.name? ≠ none → ReadsNamed type) := by
  induction formed with
  | @named name params isName formed ih =>
    have named := readsNamed_of_params isName (readsParams formed fun param listed =>
      (ih param listed).1)
    exact ⟨readsMembers_of_named (List.cons_ne_nil _ _) (List.forall_mem_singleton.mpr named),
      fun _ => named⟩
  | union several plain _ ih =>
    refine ⟨readsMembers_of_named (by rintro rfl; simp at several) fun member listed =>
      (ih member listed).2 (plain member listed), fun absent => absurd rfl absent⟩

/-- **Reading the text of a type gives the type.** -/
theorem read_text {type : Ty} (formed : type.Formed) : read? type.text.toList = some type := by
  have reads := (reads_of_formed formed).1
  unfold ReadsMembers at reads
  rw [textList_members] at reads
  have nothing : ∀ {good : Char → Prop}, ∀ c ∈ ([] : List Char).head?, good c := by
    intro good c head
    contradiction
  obtain ⟨after, read, same⟩ := reads (3 * type.text.toList.length + 3) [] (by omega)
    ⟨nothing, nothing⟩ nothing
  rw [List.append_nil] at read
  have empty : trimStart after = [] := same
  rw [read?, read]
  simp only [empty, ofMembers_members formed]
  rfl

end Ty

/-- **Printing and reading types are inverse.** Every type that is formed is read from its text, and
nothing but blanks is discarded from a text that is read as a type. -/
theorem type_texts_inverse (type : Ty) (text : List Char) :
    (type.Formed → Ty.read? type.text.toList = some type) ∧
      (Ty.read? text = some type → type.Formed ∧ visible type.text.toList = visible text) := by
  refine ⟨Ty.read_text, fun read => ?_⟩
  obtain ⟨formed, same, -⟩ := Ty.formed_of_read read
  exact ⟨formed, same.symm⟩

/-- Unions among parameters, names with letters of any alphabet, and blanks anywhere. -/
theorem type_texts_inverse_nested :
    let type := Ty.union [.named "array" [.union [.named "größe" [], .string]],
      .named "_2" [.number, .named "object" [.any]]]
    let text := " array <größe|\nstring>|_2< number,object<any> >".toList
    Ty.read? text = some type ∧ type.Formed ∧ visible type.text.toList = visible text ∧
      Ty.read? type.text.toList = some type := by
  intro type text
  have read : Ty.read? text = some type := by decide +kernel
  obtain ⟨inverse, known⟩ := type_texts_inverse type text
  obtain ⟨formed, same⟩ := known read
  exact ⟨read, formed, same, inverse formed⟩

/-! ### Parameters -/

theorem Param.spec (printable : param.isPrintable = true) :
    Word param.name.toList ∧ param.type.isWritable = true := by
  rw [Param.isPrintable, Bool.and_eq_true] at printable
  exact ⟨word_of_isFreeName printable.1, printable.2⟩

theorem splitLastBlank_word {name : List Char} (isWord : Word name) (front : List Char) :
    splitLastBlank (front ++ ' ' :: name) = some (front, name) := by
  have last : ((front ++ ' ' :: name).reverse.takeWhile fun c => !isBlank c).reverse = name := by
    have shown : ∀ c ∈ name.reverse, (!isBlank c) = true := fun c member => by
      rw [(isAsciiWord_spec (isWord.word c (List.mem_reverse.mp member))).2]
      rfl
    rw [List.reverse_append, List.reverse_cons, List.append_assoc,
      List.takeWhile_append_of_pos shown]
    simp [isBlank]
  unfold splitLastBlank
  simp only [last]
  have longer : ¬ name.length = (front ++ ' ' :: name).length := by
    simp only [List.length_append, List.length_cons]
    omega
  have length : (front ++ ' ' :: name).length - name.length - 1 = front.length := by
    simp only [List.length_append, List.length_cons]
    omega
  rw [if_neg longer, length, List.take_left]

theorem readParameter_printed (printable : param.isPrintable = true) :
    readParameter false param.print = .ok param := by
  obtain ⟨isWord, writable⟩ := param.spec printable
  unfold readParameter Param.print
  rw [splitLastBlank_word isWord]
  simp only [readType, Ty.read_text (Ty.formed_of_isWritable writable), isWord.isIdentifier, if_true,
    String.ofList_toList]
  rfl

theorem printParams_eq (params : List Param) :
    printParams params = [',', ' '].intercalate (params.map Param.print) := by
  induction params with
  | nil => rfl
  | cons param rest ih =>
    cases rest with
    | nil => simp [printParams, List.intercalate]
    | cons second rest =>
      rw [printParams, ih]
      · simp [List.intercalate]
      · simp

theorem Param.uncut (printable : param.isPrintable = true) :
    Uncut parameterBrackets param.print := by
  obtain ⟨isWord, writable⟩ := param.spec printable
  intro rest
  have blank (rest : List Char) : pieces parameterBrackets .outside 0 (' ' :: rest) =
      consPiece ' ' (pieces parameterBrackets .outside 0 rest) :=
    pieces_plain (by decide) (fun _ => by decide) (.inl (by decide)) rest
  rw [Param.print, List.append_assoc, List.cons_append,
    (Ty.typeText false writable).parameterPieces (Int.le_refl 0) (fun absurd => nomatch absurd),
    blank, parameterPieces_word isWord, List.foldr_append, List.foldr_cons]

/-- Reading a printed parameter list. -/
theorem readParameters_printed {params : List Param}
    (printable : params.all Param.isPrintable = true) :
    readParameters false (printParams params) = .ok params := by
  have each := List.all_eq_true.mp printable
  have shown : ∀ param ∈ params, Shown param.print := fun param member => by
    obtain ⟨isWord, writable⟩ := param.spec (each param member)
    exact (Ty.typeText false writable).shown.join isWord.shown [' ']
  have split : splitParameters (printParams params) = params.map Param.print := by
    unfold splitParameters
    rw [printParams_eq, trimmedPieces_joined (by decide)]
    · exact List.filter_eq_self.mpr (List.forall_mem_map.mpr fun param member => by
        simpa using (shown param member).nonempty)
    · exact List.forall_mem_map.mpr fun param member => param.uncut (each param member)
    · exact List.forall_mem_map.mpr shown
  have read : ∀ {params : List Param}, (∀ param ∈ params, param.isPrintable = true) →
      readParameterList false (params.map Param.print) = .ok params := by
    intro params each
    induction params with
    | nil => rfl
    | cons param rest ih =>
      rw [List.map_cons, readParameterList, readParameter_printed (each param List.mem_cons_self),
        ih fun other member => each other (.tail param member)]
      rfl
  rw [readParameters, split, read each]

end TypedScript
