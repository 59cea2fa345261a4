/-
**What reading assures.** A reading has diagnostics, and a value unless it stops. For every reader it
is said once of which kind its diagnostics are, what is known of its value, and what is known of it
if nothing is reported. While an expression is read, the tokens so far never have two values side by
side, and an `await` takes up the next value or nothing.

* `readParameter_eq_ok`, `isNameChar_of_splitDeclaration`: names in declarations.
-/

import Mathlib.Data.List.TakeWhile
import TypedScript.Proofs.Parsing.Parts
import TypedScript.Proofs.Parsing.Spots
import TypedScript.Proofs.Text.Regions
import TypedScript.Syntax.Parsing

namespace TypedScript

open Text

variable {condition : Prop} {c : Char} {name text type : List Char} {untyped : Bool}
  {texts : List (List Char)} {params : List Param} {length : Nat} {token : Token} {scan : Scan}

/-! ### Readings -/

namespace Reading

variable {α β : Type} {diag : Diagnostic → Prop}

theorem require_eq_ok {value? : Option α} {cause : Cause} {line : Nat} {value : α}
    (found : (Reading.require value? cause line).outcome = .ok value) : value? = some value := by
  cases value? with
  | none => contradiction
  | some other => exact congrArg some (Except.ok.inj found)

/-- What holds of the diagnostics and the result of a reading. -/
structure Entails (diag : Diagnostic → Prop) (kind sound : α → Prop) (reading : Reading α) :
    Prop where
  collected : ∀ diagnostic ∈ reading.collected, diag diagnostic
  failed : ∀ diagnostic, reading.outcome = .error (.failed diagnostic) → diag diagnostic
  kind : ∀ value, reading.outcome = .ok value → kind value
  sound : ∀ value, reading.outcome = .ok value → reading.collected = [] → sound value

namespace Entails

variable {kind sound : α → Prop} {reading other : Reading α} {cause : Cause} {line : Nat}
  {value : α} {next : α → Reading β} {kind' sound' : β → Prop}

theorem any : reading.Entails (fun _ => True) (fun _ => True) fun _ => True :=
  ⟨fun _ _ => trivial, fun _ _ => trivial, fun _ _ => trivial, fun _ _ _ => trivial⟩

theorem done (known : kind value) (holds : sound value) :
    (Reading.done value).Entails diag kind sound where
  collected := nofun
  failed := nofun
  kind := by
    rintro _ ⟨⟩
    exact known
  sound := by
    rintro _ ⟨⟩ _
    exact holds

theorem pure (known : kind value) (holds : sound value) :
    (Pure.pure value : Reading α).Entails diag kind sound :=
  done known holds

theorem fail (reported : diag ⟨cause, line⟩) :
    (Reading.fail cause line : Reading α).Entails diag kind sound where
  collected := nofun
  failed := by
    rintro _ ⟨⟩
    exact reported
  kind := nofun
  sound := nofun

theorem exhausted : (Reading.exhausted : Reading α).Entails diag kind sound :=
  ⟨nofun, nofun, nofun, nofun⟩

theorem bind (first : reading.Entails diag kind sound)
    (second : ∀ value, kind value →
      (next value).Entails diag kind' fun result => sound value → sound' result) :
    (reading >>= next).Entails diag kind' sound' := by
  show (reading.andThen next).Entails diag kind' sound'
  unfold andThen
  cases outcome : reading.outcome with
  | error stop =>
    refine ⟨first.collected, fun diagnostic same => ?_, nofun, nofun⟩
    exact first.failed diagnostic (outcome.trans (by rw [Except.error.inj same]))
  | ok value =>
    have rest := second value (first.kind value outcome)
    refine ⟨List.forall_mem_append.mpr ⟨first.collected, rest.collected⟩, rest.failed,
      rest.kind, fun result found none => ?_⟩
    obtain ⟨before, behind⟩ := List.append_eq_nil_iff.mp none
    exact rest.sound result found behind (first.sound value outcome before)

theorem imp {kind' sound' : α → Prop} (entails : reading.Entails diag kind sound)
    (weaker : ∀ value, kind value → kind' value)
    (follows : ∀ value, kind value → sound value → sound' value) :
    reading.Entails diag kind' sound' where
  collected := entails.collected
  failed := entails.failed
  kind value found := weaker value (entails.kind value found)
  sound value found none := follows value (entails.kind value found) (entails.sound value found none)

/-- A reading without lines in its value, in front of another one. -/
theorem seq (first : reading.Entails diag kind fun _ => True)
    (second : ∀ value, kind value → (next value).Entails diag kind' sound') :
    (reading >>= next).Entails diag kind' sound' :=
  bind first fun value known => (second value known).imp (fun _ => id) fun _ _ holds _ => holds

theorem ite [Decidable condition] (yes : condition → reading.Entails diag kind sound)
    (no : ¬condition → other.Entails diag kind sound) :
    (if condition then reading else other).Entails diag kind sound := by
  split
  · exact yes ‹_›
  · exact no ‹_›

theorem refusing [Decidable condition] (reported : diag ⟨cause, line⟩)
    (rest : ¬condition → reading.Entails diag kind sound) :
    (if condition then .fail cause line else reading).Entails diag kind sound :=
  ite (fun _ => fail reported) rest

theorem require {value? : Option α} (reported : diag ⟨cause, line⟩) :
    (Reading.require value? cause line).Entails diag (fun value => value? = some value)
      fun _ => True := by
  cases value? with
  | none => exact fail reported
  | some value => exact done rfl trivial

theorem lift {outcome : Except Cause α} (reported : ∀ cause, diag ⟨cause, line⟩) :
    (Reading.lift line outcome).Entails diag (fun value => outcome = .ok value) fun _ => True := by
  cases outcome with
  | error cause => exact fail (reported cause)
  | ok value => exact done rfl trivial

theorem collect {diagnostics : List Diagnostic} (reported : ∀ found ∈ diagnostics, diag found) :
    (Reading.collect diagnostics).Entails diag (fun _ => True) fun _ => diagnostics = [] where
  collected := reported
  failed := nofun
  kind _ _ := trivial
  sound _ _ := id

theorem recover (entails : reading.Entails diag kind sound) :
    reading.recover.Entails diag (fun value? => ∀ value ∈ value?, kind value)
      fun value? => ∃ value, value? = some value ∧ sound value := by
  unfold Reading.recover
  split
  · rename_i value outcome
    refine ⟨entails.collected, nofun, ?_, ?_⟩
    · rintro _ ⟨⟩ _ ⟨⟩
      exact entails.kind value outcome
    · rintro _ ⟨⟩ none
      exact ⟨value, rfl, entails.sound value outcome none⟩
  · rename_i diagnostic outcome
    refine ⟨?_, nofun, ?_, ?_⟩
    · refine List.forall_mem_append.mpr ⟨entails.collected, ?_⟩
      simpa using entails.failed diagnostic outcome
    · rintro _ ⟨⟩
      exact nofun
    · rintro _ ⟨⟩ none
      exact absurd none (by simp)
  · exact ⟨entails.collected, nofun, nofun, nofun⟩

end Entails

end Reading

/-! ### Names -/

theorem isNameChar_of_isWordChar (word : isWordChar c = true) : isNameChar c = true := by
  rw [isNameChar, word, Bool.true_or]

theorem isWordChar_of_isIdentifier (identifier : isIdentifier name = true) :
    ∀ c ∈ name, isWordChar c = true := by
  cases name with
  | nil => exact absurd identifier Bool.false_ne_true
  | cons first rest =>
    rw [isIdentifier, Bool.and_eq_true] at identifier
    refine List.forall_mem_cons.mpr ⟨?_, List.all_eq_true.mp identifier.2⟩
    rw [isWordChar, Bool.or_right_comm, identifier.1, Bool.true_or]

theorem isNameChar_of_isIdentifier (identifier : isIdentifier name = true) :
    ∀ c ∈ name, isNameChar c = true :=
  fun c member => isNameChar_of_isWordChar (isWordChar_of_isIdentifier identifier c member)

/-- **What was read is sound.** -/
theorem Every.sound {parts : List Part} (read : Every Part.IsRead parts) : Sound parts := by
  intro part member
  have known := read part member
  cases part with
  | expression tokens => exact known.1
  | base name => exact isNameChar_of_isIdentifier known
  | property name => exact fun c member => isNameChar_of_isWordChar (known.2 c member)
  | _ => exact known

theorem continuesDeclared_of_isDeclaredName (declared : isDeclaredName name = true) :
    ∀ c ∈ name, continuesDeclared c = true := by
  cases name with
  | nil => exact absurd declared Bool.false_ne_true
  | cons first rest =>
    rw [isDeclaredName, Bool.and_eq_true] at declared
    refine List.forall_mem_cons.mpr ⟨?_, List.all_eq_true.mp declared.2⟩
    rw [continuesDeclared, declared.1, Bool.true_or]

theorem splitDeclaration_eq_some (split : splitDeclaration text = some (type, name)) :
    ∃ front, splitLastBlank text = some (front, name) ∧ type = trimEnd front ∧
      isDeclaredType type = true ∧ isDeclaredName name = true := by
  unfold splitDeclaration at split
  split at split
  · contradiction
  · rename_i front last cut
    dsimp only at split
    split_ifs at split with declared
    obtain ⟨rfl, rfl⟩ := Prod.mk.inj (Option.some.inj split)
    exact ⟨front, cut, rfl, Bool.and_eq_true_iff.mp declared⟩

theorem isNameChar_of_splitDeclaration (split : splitDeclaration text = some (type, name)) :
    ∀ c ∈ (String.ofList name).toList, isNameChar c = true := by
  obtain ⟨_, _, _, _, declared⟩ := splitDeclaration_eq_some split
  rw [String.toList_ofList]
  intro c member
  rw [isNameChar, continuesDeclared_of_isDeclaredName declared c member, Bool.or_true]

theorem readParameter_eq_ok {param : Param} (read : readParameter untyped text = .ok param) :
    ∃ name, isIdentifier name = true ∧ param.name = String.ofList name ∧
      (name = text ∨ ∃ front type, splitLastBlank text = some (front, name) ∧
        readType front = .ok type) := by
  have named {type : Ty} {name : List Char} {invalid : Cause}
      (read : (if isIdentifier name then Except.ok ⟨String.ofList name, type⟩ else .error invalid) =
        .ok param) : isIdentifier name = true ∧ param.name = String.ofList name := by
    split at read
    · cases read
      exact ⟨‹_›, rfl⟩
    · contradiction
  unfold readParameter at read
  split at read
  · rename_i front name cut
    cases known : readType front with
    | error cause =>
      rw [known] at read
      contradiction
    | ok type =>
      rw [known] at read
      exact ⟨name, (named read).1, (named read).2, .inr ⟨front, type, cut, known⟩⟩
  · split at read
    · exact ⟨text, (named read).1, (named read).2, .inl rfl⟩
    · contradiction

theorem readParameterList_eq_ok (read : readParameterList untyped texts = .ok params) :
    (∀ text ∈ texts, ∃ param, readParameter untyped text = .ok param) ∧
      ∀ param ∈ params, ∃ text, readParameter untyped text = .ok param := by
  induction texts generalizing params with
  | nil =>
    cases read
    exact ⟨nofun, nofun⟩
  | cons text rest ih =>
    rw [readParameterList] at read
    cases first : readParameter untyped text with
    | error cause =>
      rw [first] at read
      contradiction
    | ok param =>
      cases others : readParameterList untyped rest with
      | error cause =>
        rw [first, others] at read
        contradiction
      | ok further =>
        rw [first, others] at read
        cases read
        obtain ⟨texts, params⟩ := ih others
        exact ⟨List.forall_mem_cons.mpr ⟨⟨param, first⟩, texts⟩,
          List.forall_mem_cons.mpr ⟨⟨text, first⟩, params⟩⟩

theorem readParameterList_names (read : readParameterList untyped texts = .ok params) :
    Every Part.IsRead (params.map fun param => .declared param.name) := by
  refine List.forall_mem_map.mpr fun param member => ?_
  obtain ⟨text, read⟩ := (readParameterList_eq_ok read).2 param member
  obtain ⟨name, identifier, same, -⟩ := readParameter_eq_ok read
  rw [Part.IsRead, same, String.toList_ofList]
  exact isNameChar_of_isIdentifier identifier

/-! ### Words at the start of a text -/

theorem chainLength_letters {text : List Char} {length : Nat}
    (found : chainLength 0 text = some length) (noIndex : '[' ∉ text.take length) :
    ∀ c ∈ text.take length, (isWordChar c || c == '.') = true := by
  induction text generalizing length with
  | nil => simp
  | cons c rest ih =>
    rw [chainLength] at found
    split_ifs at found with letter index
    · obtain ⟨others, counted, rfl⟩ := Option.map_eq_some_iff.mp found
      rw [List.take_succ_cons, List.mem_cons, not_or] at noIndex
      rw [List.take_succ_cons]
      exact List.forall_mem_cons.mpr ⟨letter, ih counted noIndex.2⟩
    · split at found
      · contradiction
      · obtain ⟨others, _, rfl⟩ := Option.map_eq_some_iff.mp found
        rw [List.take_succ_cons, index] at noIndex
        exact absurd List.mem_cons_self noIndex
    · obtain rfl := Option.some.inj found
      simp

theorem trim_take_chainLength (found : chainLength 0 text = some length)
    (letters : ∀ c ∈ trim (text.take length), isWordChar c = true) :
    trim (text.take length) = text.take length := by
  have noIndex : '[' ∉ text.take length := by
    obtain ⟨before, after, first, last, whole⟩ := trim_eq (text.take length)
    rw [whole, List.append_assoc, List.mem_append, List.mem_append]
    rintro (blank | word | blank)
    · exact absurd (first _ blank) (by decide)
    · exact absurd (letters _ word) (by decide)
    · exact absurd (last _ blank) (by decide)
  have shown : ∀ c ∈ text.take length, isBlank c = false := by
    intro c member
    by_contra blank
    have word := isWordChar_of_isBlank (Bool.not_eq_false _ ▸ blank)
    have dot : c = '.' := by simpa [word] using chainLength_letters found noIndex c member
    exact blank (dot ▸ by decide)
  exact trim_eq_self_of_ends (fun c first => shown c (List.mem_of_head? first))
    fun c last => shown c (List.mem_of_getLast? last)

def StartsWith (text : List Char) (name : String) : Prop :=
  name ≠ "" ∧ (∀ c ∈ name.toList, isWordChar c = true) ∧
    ∃ c rest, trimStart text = name.toList ++ c :: rest ∧ isWordChar c = false

theorem StartsWith.behind_blanks {blanks : List Char} {name : String}
    (starts : StartsWith text name) (blank : ∀ c ∈ blanks, isBlank c = true) :
    StartsWith (blanks ++ text) name := by
  unfold StartsWith trimStart
  rw [List.dropWhile_append_of_pos blank]
  exact starts

theorem StartsWith.of_trim {name : String} (starts : StartsWith (trim text) name) :
    StartsWith text name := by
  obtain ⟨present, word, c, rest, whole, ends⟩ := starts
  obtain ⟨after, _, same⟩ := trimEnd_append_blanks (trimStart text)
  refine ⟨present, word, c, rest ++ after, ?_, ends⟩
  rw [same, show trimEnd (trimStart text) = trim text from rfl,
    ← trimStart_eq_self (head_trim text), whole, List.append_assoc]
  rfl

theorem startsWith_of_chain {front rest : List Char} (ends : isWordChar c = false)
    (named : isIdentifier (leadingWord (trim front)) = true) :
    StartsWith (front ++ c :: rest) (String.ofList (leadingWord (trim front))) := by
  obtain ⟨before, after, first, last, whole⟩ := trim_eq front
  have head := head_trim front
  generalize trim front = chain at whole head named ⊢
  subst whole
  have cut : leadingWord chain ++ chain.dropWhile isWordChar = chain :=
    List.takeWhile_append_dropWhile
  have word : leadingWord chain ≠ [] := by
    intro none
    rw [none] at named
    exact absurd named Bool.false_ne_true
  have starts : trimStart (before ++ chain ++ after ++ c :: rest) =
      leadingWord chain ++ (chain.dropWhile isWordChar ++ (after ++ c :: rest)) := by
    obtain ⟨d, more, same⟩ := List.exists_cons_of_ne_nil word
    rw [List.append_assoc, List.append_assoc, trimStart, List.dropWhile_append_of_pos first,
      ← List.append_assoc (leadingWord chain), cut]
    refine trimStart_eq_self fun e member => head e ?_
    rw [← cut, same] at member ⊢
    exact member
  refine ⟨fun none => word ?_, ?_, ?_⟩
  · simpa using congrArg String.toList none
  · rw [String.toList_ofList]
    exact fun d member => List.mem_takeWhile_imp member
  · rw [String.toList_ofList, starts]
    -- behind the word stands the rest of the chain, a blank, or the parenthesis
    cases behind : chain.dropWhile isWordChar with
    | cons d more =>
      refine ⟨d, more ++ (after ++ c :: rest), rfl, ?_⟩
      have shown := List.head_dropWhile_not (p := isWordChar) (l := chain) (by simp [behind])
      simpa [behind] using shown
    | nil =>
      cases after with
      | nil => exact ⟨c, rest, rfl, ends⟩
      | cons d more =>
        exact ⟨d, more ++ c :: rest, rfl, isWordChar_of_isBlank (last d (List.mem_cons_self ..))⟩

/-! ### Tokens of an expression -/

def Token.isLone : Token → Bool
  | .access .. | .call .. | .await _ | .operator _ => false
  | _ => true

/-- A token that is taken for a value. -/
structure Token.IsOperand (called : String → Prop) (token : Token) : Prop where
  isValue : token.isValue = true
  single : token.isAwait = false
  free : ∀ name ∈ token.soleName?, isReserved name = false
  parts : Every Part.IsRead token.parts
  callee : ∀ base steps arguments, token = .call base steps arguments → called base

theorem Token.IsOperand.lone {called : String → Prop} (lone : token.isLone = true)
    (parts : Every Part.IsRead token.parts) : token.IsOperand called := by
  cases token with
  | access | call | await | operator => contradiction
  | _ => exact ⟨rfl, rfl, by simp [Token.soleName?], parts, by simp⟩

/-- The tokens read so far are those of a sound expression, but for its end. A call that is the first
one has the name that the text starts with. -/
structure Scan.IsSound (text : List Char) (scan : Scan) : Prop where
  apart : scan.tokens.IsChain Token.Apart
  allowed : ∀ token ∈ scan.tokens, token.isAllowed = true
  free : ∀ token ∈ scan.tokens, ∀ name ∈ token.soleName?, isReserved name = false
  parts : ∀ token ∈ scan.tokens, Every Part.IsRead token.parts
  first : ∀ base steps arguments, scan.tokens.getLast? = some (.call base steps arguments) →
    StartsWith text base

def Scan.Started (scan : Scan) : Prop :=
  scan.tokens = [] → scan.awaiting = true

theorem Scan.started_cons (token : Token) (tokens : List Token) (awaiting : Bool) :
    Scan.Started ⟨token :: tokens, awaiting⟩ :=
  fun none => absurd none (List.cons_ne_nil _ _)

theorem Scan.IsSound.push (sound : scan.IsSound text)
    (behind : scan.endsInValue = true → token.isValue = false) (allowed : token.isAllowed = true)
    (free : ∀ name ∈ token.soleName?, isReserved name = false)
    (parts : Every Part.IsRead token.parts)
    (first : scan.tokens = [] → ∀ base steps arguments, token = .call base steps arguments →
      StartsWith text base) (awaiting : Bool) :
    Scan.IsSound text ⟨token :: scan.tokens, awaiting⟩ where
  apart := by
    obtain ⟨tokens, _⟩ := scan
    cases tokens with
    | nil => exact .singleton token
    | cons last earlier =>
      refine .cons_cons (fun isValue => ?_) sound.apart
      by_contra ends
      rw [behind (Bool.not_eq_false _ ▸ ends)] at isValue
      contradiction
  allowed := List.forall_mem_cons.mpr ⟨allowed, sound.allowed⟩
  free := List.forall_mem_cons.mpr ⟨free, sound.free⟩
  parts := List.forall_mem_cons.mpr ⟨parts, sound.parts⟩
  first := by
    obtain ⟨tokens, _⟩ := scan
    cases tokens with
    | nil =>
      exact fun base steps arguments only => first rfl base steps arguments (by simpa using only)
    | cons last earlier => simpa only [List.getLast?_cons_cons] using sound.first

theorem Scan.IsSound.wellFormed (sound : scan.IsSound text) (ends : scan.endsInValue = true) :
    WellFormed scan.tokens.reverse where
  nonempty := by
    rintro none
    rw [Scan.endsInValue, List.reverse_eq_nil_iff.mp none] at ends
    contradiction
  ends := by
    rw [List.getLast?_reverse]
    unfold Scan.endsInValue at ends
    split at ends
    · contradiction
    · rename_i tokens
      rw [tokens]
      exact ends
  apart := by
    refine List.isChain_reverse.mpr (sound.apart.imp fun left right apart isValue => ?_)
    by_contra other
    rw [apart (Bool.not_eq_false _ ▸ other)] at isValue
    contradiction
  allowed := fun token member => sound.allowed token (List.mem_reverse.mp member)

/-- **An expression that was read** is well-formed, and so are those inside it. -/
theorem Scan.IsSound.expression (sound : scan.IsSound text) (ends : scan.endsInValue = true) :
    Every Part.IsRead (expressionParts scan.tokens.reverse) := by
  rw [expressionParts, Every.cons_iff, Every.tokens_iff]
  simp only [List.mem_reverse]
  exact ⟨⟨sound.wellFormed ends, fun token member => sound.free token (List.mem_reverse.mp member)⟩,
    sound.parts⟩

theorem Scan.IsSound.callee (sound : scan.IsSound text) :
    ∀ name ∈ (Kind.ofTokens scan.tokens.reverse).callee?, StartsWith text name := by
  intro name called
  unfold Kind.ofTokens at called
  split at called
  · rename_i base steps arguments single
    obtain rfl : base = name := Option.some.inj called
    refine sound.first base steps arguments ?_
    rw [← List.head?_reverse, single]
    rfl
  · contradiction

theorem ofTokens_parts {tokens : List Token} (read : Every Part.IsRead (expressionParts tokens)) :
    Every Part.IsRead (Kind.ofTokens tokens).parts := by
  unfold Kind.ofTokens
  split
  · rw [expressionParts, Every.cons_iff, Every.tokens_iff] at read
    exact read.2 _ (List.mem_singleton_self _)
  · exact read

end TypedScript
