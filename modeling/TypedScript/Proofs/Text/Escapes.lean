/-
**Escapes while reading on.** The reader of expressions decodes the escapes of a literal as it looks
for the quote that closes it. It ends at the quote that the automaton ends at, and the literal denotes
what its characters between the quotes denote.
-/

import TypedScript.Proofs.Text.Regions
import TypedScript.Source.Escapes

namespace TypedScript

open Text

variable {c : Char} {text front rest : List Char} {text : List Char} {length : Nat}

/-- The denoted text, where the first `skip` characters belong to an escape that was decoded. -/
def unescapeFrom : Nat → List Char → List Char
  | _, [] => []
  | skip + 1, _ :: rest => unescapeFrom skip rest
  | 0, '\\' :: c :: rest =>
    match plainEscape? c with
    | some denoted => denoted :: unescapeFrom 1 (c :: rest)
    | none =>
      match if c = 'u' then unicodeEscape? rest else none with
      | some (denoted, length) => denoted :: unescapeFrom (length + 1) (c :: rest)
      | none => '\\' :: c :: unescapeFrom 1 (c :: rest)
  | 0, c :: rest => c :: unescapeFrom 0 rest

/-- The text that the characters between the quotes denote. -/
def unescape (body : List Char) : List Char :=
  unescapeFrom 0 body

theorem unescapeFrom_skip (text rest : List Char) :
    unescapeFrom text.length (text ++ rest) = unescapeFrom 0 rest := by
  induction text with
  | nil => rfl
  | cons c text ih => rw [List.length_cons, List.cons_append, unescapeFrom, ih]

theorem unescapeFrom_plain (plain : ∀ c ∈ text, c ≠ '\\') (rest : List Char) :
    unescapeFrom 0 (text ++ rest) = text ++ unescapeFrom 0 rest := by
  induction text with
  | nil => rfl
  | cons c text ih =>
    rw [List.cons_append, unescapeFrom, ih fun d member => plain d (.tail c member)]
    · rfl
    · exact fun _ _ same => absurd same (plain c List.mem_cons_self)

theorem unescapeFrom_decoded {c : Char} (decoded : unicodeEscape? text = some (c, length)) :
    unescapeFrom 0 ('\\' :: 'u' :: text) = c :: unescapeFrom length text := by
  rw [unescapeFrom]
  simp [plainEscape?, decoded, unescapeFrom]

/-- All characters of a number are digits. -/
theorem hexNumber_eq_some {digits : List Char} {number : Nat}
    (found : hexNumber? digits = some number) : ∀ c ∈ digits, (hexDigit? c).isSome = true := by
  unfold hexNumber? at found
  generalize 0 = total at found
  induction digits generalizing total with
  | nil => simp
  | cons c more ih =>
    rw [List.foldlM_cons, Option.bind_eq_bind, Option.bind_eq_some_iff] at found
    obtain ⟨next, first, others⟩ := found
    obtain ⟨digit, value, -⟩ := Option.map_eq_some_iff.mp first
    exact List.forall_mem_cons.mpr ⟨by rw [value]; rfl, ih _ others⟩

theorem takeWhile_cut {stop : Char}
    (found : (text.takeWhile fun c => c != stop).length ≠ text.length) :
    ∃ rest, text = text.takeWhile (fun c => c != stop) ++ stop :: rest := by
  induction text with
  | nil => contradiction
  | cons c more ih =>
    by_cases stops : c = stop
    · exact ⟨more, by simp [stops]⟩
    · rw [List.takeWhile_cons_of_pos (by simpa using stops)] at found ⊢
      obtain ⟨rest, whole⟩ := ih fun same => found (congrArg (· + 1) same)
      exact ⟨rest, congrArg (c :: ·) whole⟩

/-- **The digits of an escape** hold no quote and no backslash, and what follows them does not
matter. -/
theorem unicodeEscape_eq_some (found : unicodeEscape? text = some (c, length)) :
    ∃ digits rest, text = digits ++ rest ∧ digits.length = length ∧
      (∀ d ∈ digits, d ≠ '"' ∧ d ≠ '\\') ∧
      ∀ other, unicodeEscape? (digits ++ other) = some (c, length) := by
  have plain {digits : List Char} {number : Nat} (found : hexNumber? digits = some number) :
      ∀ d ∈ digits, d ≠ '"' ∧ d ≠ '\\' ∧ d ≠ '\x7b' := by
    intro d member
    have value := hexNumber_eq_some found d member
    refine ⟨?_, ?_, ?_⟩ <;> rintro rfl <;> contradiction
  unfold unicodeEscape? at found
  split at found
  · rename_i more
    dsimp only at found
    split_ifs at found with unclosed short
    split at found <;> try contradiction
    rename_i denoted decoded
    obtain ⟨rfl, rfl⟩ := Prod.mk.inj (Option.some.inj found)
    obtain ⟨number, digits, -⟩ := Option.bind_eq_some_iff.mp decoded
    obtain ⟨rest, whole⟩ := takeWhile_cut unclosed
    have taken : ∀ d ∈ more.takeWhile (fun c => c != '\x7d'), (d != '\x7d') = true :=
      fun d member => List.mem_takeWhile_imp (p := fun c => c != '\x7d') member
    generalize more.takeWhile (fun c => c != '\x7d') = front at *
    refine ⟨'\x7b' :: (front ++ ['\x7d']), rest, by simp [whole], by simp, ?_, fun other => ?_⟩
    · simp only [List.mem_cons, List.mem_append, List.not_mem_nil, or_false]
      rintro d (rfl | member | rfl)
      · decide
      · exact ⟨(plain digits d member).1, (plain digits d member).2.1⟩
      · decide
    · have same : (front ++ '\x7d' :: other).takeWhile (fun c => c != '\x7d') = front := by
        rw [List.takeWhile_append_of_pos taken]
        simp
      simp [unicodeEscape?, same, short, decoded]
  · rename_i noBrace
    dsimp only at found
    split_ifs at found with short
    split at found <;> try contradiction
    rename_i denoted decoded
    obtain ⟨rfl, rfl⟩ := Prod.mk.inj (Option.some.inj found)
    obtain ⟨number, digits, -⟩ := Option.bind_eq_some_iff.mp decoded
    have four : (text.take 4).length = 4 := not_not.mp short
    refine ⟨text.take 4, text.drop 4, (List.take_append_drop 4 text).symm, four,
      fun d member => ⟨(plain digits d member).1, (plain digits d member).2.1⟩, fun other => ?_⟩
    have same : (text.take 4 ++ other).take 4 = text.take 4 := List.take_left' four
    unfold unicodeEscape?
    split
    · rename_i rest brace
      obtain ⟨first, others, front⟩ :=
        List.exists_cons_of_length_pos (Nat.lt_of_lt_of_eq (by decide : 0 < 4) four.symm)
      rw [front] at brace digits
      exact absurd (List.cons.inj brace).1 (plain digits first List.mem_cons_self).2.2
    · dsimp only
      rw [same, if_neg short, decoded]

/-- An escape does not reach over the quote that closes its literal. -/
theorem unicodeEscape_append (body rest : List Char) :
    unicodeEscape? (body ++ '"' :: rest) = unicodeEscape? body := by
  cases found : unicodeEscape? body with
  | some decoded =>
    obtain ⟨digits, other, rfl, -, -, same⟩ := unicodeEscape_eq_some found
    rw [List.append_assoc, same]
  | none =>
    refine Option.eq_none_iff_forall_ne_some.mpr fun decoded whole => ?_
    obtain ⟨digits, other, cut, -, plain, same⟩ := unicodeEscape_eq_some whole
    rcases List.append_eq_append_iff.mp cut with ⟨more, rfl, behind⟩ | ⟨more, rfl, -⟩
    · cases more with
      | nil =>
        have decodes := same []
        rw [List.append_nil, List.append_nil, found] at decodes
        contradiction
      | cons d more =>
        obtain rfl := (List.cons.inj behind).1
        exact (plain '"' (by simp)).1 rfl
    · rw [same] at found
      contradiction

theorem decodeFrom_skip (text rest : List Char) :
    decodeFrom text.length (text ++ rest) = decodeFrom 0 rest := by
  induction text with
  | nil => rfl
  | cons c text ih => rw [List.length_cons, List.cons_append, decodeFrom, ih]

/-- Other characters stay inside of the literal. -/
theorem closing_plain (plain : ∀ d ∈ front, d ≠ '"' ∧ d ≠ '\\') (rest : List Char) :
    Quote.closing .inside (front ++ rest) = front.foldr consCut (Quote.closing .inside rest) := by
  induction front with
  | nil => rfl
  | cons c more ih =>
    obtain ⟨⟨noQuote, noEscape⟩, others⟩ := List.forall_mem_cons.mp plain
    rw [List.cons_append, Quote.closing, Quote.step, if_neg noQuote, if_neg noEscape]
    exact congrArg (consCut c) (ih others)

/-- Decoding ends where the literal does, with what it denotes. -/
def Decodes (text : List Char) : Prop :=
  decodeFrom 0 text = (Quote.closing .inside text).map fun cut => (unescape cut.1, cut.2)

/-- One unit of a literal: a character, or an escape. -/
theorem Decodes.unit (behind : Decodes rest) (written denoted : List Char)
    (decodes : decodeFrom 0 text = denoted.foldr consCut (decodeFrom 0 rest))
    (closes : Quote.closing .inside text = written.foldr consCut (Quote.closing .inside rest))
    (denotes : ∀ body more, rest = body ++ '"' :: more →
      unescapeFrom 0 (written ++ body) = denoted ++ unescapeFrom 0 body) : Decodes text := by
  rw [Decodes, decodes, closes, behind, foldr_consCut, foldr_consCut]
  cases cut : Quote.closing .inside rest with
  | none => rfl
  | some found =>
    have same := denotes found.1 found.2 (closing_eq_some cut (by decide)).1
    simp [unescape, same]

/-- **Decoding escapes while reading on** ends at the same quote as reading first. -/
theorem decodeFrom_eq (text : List Char) :
    decodeFrom 0 text = (Quote.closing .inside text).map fun cut => (unescape cut.1, cut.2) := by
  show Decodes text
  induction length : text.length using Nat.strong_induction_on generalizing text with
  | _ size ih =>
    cases text with
    | nil => rfl
    | cons first more =>
      subst length
      by_cases escapes : first = '\\'
      · subst escapes
        cases more with
        | nil => rfl
        | cons c rest =>
          have behind : Decodes rest := ih _ (Nat.lt_succ_of_lt (Nat.lt_succ_self _)) rest rfl
          have closes : Quote.closing .inside ('\\' :: c :: rest) =
            ['\\', c].foldr consCut (Quote.closing .inside rest) := rfl
          cases known : plainEscape? c with
          | some denoted =>
            refine behind.unit ['\\', c] [denoted] ?_ closes fun body more _ => ?_
            · simp [decodeFrom, known]
            · simp [unescapeFrom, known]
          | none =>
            cases decoded : if c = 'u' then unicodeEscape? rest else none with
            | none =>
              refine behind.unit ['\\', c] ['\\', c] ?_ closes fun body more cut => ?_
              · simp [decodeFrom, known, decoded]
              · rw [cut, unicodeEscape_append] at decoded
                simp [unescapeFrom, known, decoded]
            | some found =>
              obtain ⟨denoted, length⟩ := found
              split_ifs at decoded with isU
              subst isU
              obtain ⟨digits, more, rfl, rfl, plain, same⟩ := unicodeEscape_eq_some decoded
              have shorter : more.length < ('\\' :: 'u' :: (digits ++ more)).length := by
                simp only [List.length_cons, List.length_append]
                omega
              refine (ih _ shorter more rfl).unit ('\\' :: 'u' :: digits) [denoted] ?_ ?_
                fun body _ _ => ?_
              · simp [decodeFrom, known, same, decodeFrom_skip]
              · rw [closes, closing_plain plain]
                rfl
              · show unescapeFrom 0 ('\\' :: 'u' :: (digits ++ body)) = _
                rw [unescapeFrom_decoded (same body), unescapeFrom_skip]
                rfl
      · by_cases quoted : first = '"'
        · subst quoted
          rfl
        · have plain : ∀ d ∈ [first], d ≠ '"' ∧ d ≠ '\\' := by simp [quoted, escapes]
          refine (ih _ (Nat.lt_succ_self _) more rfl).unit [first] [first] ?_
            (closing_plain plain more) fun body _ _ => unescapeFrom_plain (fun d member => (plain d member).2) body
          simp [decodeFrom, quoted, escapes]

theorem decodeFrom_eq_some {denoted : List Char} (found : decodeFrom 0 text = some (denoted, rest)) :
    ∃ body, Quote.closing .inside text = some (body, rest) ∧ denoted = unescape body ∧
      text.length - rest.length = body.length + 1 := by
  rw [decodeFrom_eq] at found
  obtain ⟨⟨body, behind⟩, cut, same⟩ := Option.map_eq_some_iff.mp found
  obtain ⟨denotes, ends⟩ := Prod.mk.inj same
  obtain rfl : behind = rest := ends
  refine ⟨body, cut, denotes.symm, ?_⟩
  rw [(closing_eq_some cut (by decide)).1, List.length_append, List.length_cons]
  omega

end TypedScript
