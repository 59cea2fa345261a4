/-
**Passes over JSON.** The passes that look for the end of a bracket and that cut a script into
statements take in the text of a value whole, with one exception. The cutting counts no square
brackets, so the first brace that closes outside of other braces ends the statement, even in a list.
-/

import TypedScript.Proofs.Json.RoundTrip
import TypedScript.Proofs.Printing.RoundTrip

namespace TypedScript

open Text

variable {level : Level} {text before : List Char} {opener closer : Char}

namespace Json

mutual

/-- There is no object in a value, and so no brace that a statement is cut at. -/
def isFlat : Json → Bool
  | .array items => itemsFlat items
  | .object _ => false
  | _ => true

def itemsFlat : List Json → Bool
  | [] => true
  | item :: rest => item.isFlat && itemsFlat rest

end

theorem literalBody_escapedChar (c : Char) : LiteralBody (escapedChar c) := by
  rcases escapedChar_cases c with ⟨written, quote, backslash, -⟩ | ⟨letter, digits, written, plain, -⟩
  · rw [written]
    exact .plain quote backslash .nil
  · rw [written]
    exact .escaped letter (path_body plain)

theorem literalBody_escaped (text : List Char) : LiteralBody (text.flatMap escapedChar) := by
  induction text with
  | nil => exact .nil
  | cons c text ih =>
    rw [List.flatMap_cons]
    exact (literalBody_escapedChar c).append ih

end Json

/-! ### Taking in a value -/

namespace Pass

variable {Depth Result : Type}

def TakesIn (pass : Pass Depth Result) (depth : Depth) (text : List Char) : Prop :=
  ∀ rest, pass.scan .outside depth (text ++ rest) =
    text.foldr pass.cons (pass.scan .outside depth rest)

/-- What a pass makes of the two signs that only JSON has: a colon is quiet, and a list inside of a
block is inside of it still. -/
structure TakesJson (pass : Pass Depth Result) : Prop where
  colon : ∀ depth, pass.TakesIn depth [':']
  list : ∀ {depth}, pass.admits .block depth → pass.admits .block (pass.raised '[' depth)

variable {pass : Pass Depth Result} {depth : Depth}

theorem TakesIn.append {front back : List Char} (first : pass.TakesIn depth front)
    (second : pass.TakesIn depth back) : pass.TakesIn depth (front ++ back) := by
  intro rest
  rw [List.append_assoc, first, second, List.foldr_append]

theorem TakesIn.of_passable (passable : Passable level text) (admitted : pass.admits level depth) :
    pass.TakesIn depth text :=
  fun rest => pass.passes passable admitted rest

theorem TakesIn.bracketed (found : (opener, closer) ∈ bracketPairs)
    (admitted : pass.admits level depth) (inBlock : opener = '\x7b' → level = .block)
    (inside : pass.TakesIn (pass.raised opener depth) text) :
    pass.TakesIn depth (opener :: (text ++ [closer])) := by
  intro rest
  rw [List.cons_append, List.append_assoc, pass.scan_opener found, inside, List.singleton_append,
    pass.scan_closer admitted found inBlock, List.foldr_cons, List.foldr_append]
  rfl

end Pass

/-! ### Values -/

namespace Json

theorem passable_int (value : Int) : Passable .list (writeInt value).toList := by
  have digits := Number.digits_toDigits value.natAbs
  have quiet : ∀ c ∈ Nat.toDigits 10 value.natAbs, Level.list.isQuiet c = true := by
    intro c member
    rw [Level.isQuiet, (isAsciiWord_spec (isAsciiWord_of_isAsciiDigit (digits.digits c member))).1]
    rfl
  have passable : Passable .list (Nat.toDigits 10 value.natAbs) := .of_quiet quiet
  rw [writeInt, String.toList_ofList, Number.signed]
  split_ifs
  · obtain ⟨c, more, same⟩ := List.exists_cons_of_ne_nil digits.nonempty
    have digit : isAsciiDigit c = true := digits.digits c (by rw [same]; exact .head more)
    have apart : c ∉ joiners := fun joiner => by
      have each : ∀ c ∈ joiners, isAsciiDigit c = false := by decide
      rw [each c joiner] at digit
      contradiction
    rw [same] at passable ⊢
    exact .sign (by decide) apart passable
  · exact passable

theorem passable_text (value : String) : Passable .list (writeText value).toList := by
  rw [toList_writeText]
  exact .literal (literalBody_escaped value.toList) (.nil .list)

theorem toList_writeArray (items : List Json) :
    (Json.array items).write.toList = '[' :: ((writeItems items).toList ++ [']']) := by
  rw [write, String.toList_append, String.toList_append]
  rfl

theorem toList_writeObject (fields : List (String × Json)) :
    (Json.object fields).write.toList = '\x7b' :: ((writeFields fields).toList ++ ['\x7d']) := by
  rw [write, String.toList_append, String.toList_append]
  rfl

mutual

theorem passable_flat : ∀ value : Json, value.isExact = true → value.isFlat = true →
    Passable .list value.write.toList
  | .null, _, _ | .bool true, _, _ | .bool false, _, _ => .of_quiet (by decide)
  | .int value, _, _ => passable_int value
  | .float _, exact, _ => nomatch exact
  | .text value, _, _ => passable_text value
  | .array items, exact, flat => by
    rw [toList_writeArray]
    exact .group (by decide) (passable_items items exact flat) (.nil .list)
  | .object _, _, flat => nomatch flat

theorem passable_items : ∀ items : List Json, itemsExact items = true → itemsFlat items = true →
    Passable .list (writeItems items).toList
  | [], _, _ => .nil .list
  | [item], exact, flat => by
    rw [itemsExact, Bool.and_eq_true] at exact
    rw [itemsFlat, Bool.and_eq_true] at flat
    exact passable_flat item exact.1 flat.1
  | item :: next :: rest, exact, flat => by
    rw [itemsExact, Bool.and_eq_true] at exact
    rw [itemsFlat, Bool.and_eq_true] at flat
    rw [writeItems, String.toList_append, String.toList_append, List.append_assoc]
    · exact (passable_flat item exact.1 flat.1).append
        (.quiet rfl (passable_items (next :: rest) exact.2 flat.2))
    · nofun

end

end Json

namespace Pass

variable {Depth Result : Type} {pass : Pass Depth Result}

mutual

/-- **A pass takes in a value whole** where it stands in brackets that the pass counts. -/
theorem TakesJson.value (json : pass.TakesJson) : ∀ value : Json, value.isExact = true →
    ∀ depth, pass.admits .block depth → pass.TakesIn depth value.write.toList
  | .null, exact, _, admitted => .of_passable (Json.passable_flat .null exact rfl).to_block admitted
  | .bool value, exact, _, admitted =>
    .of_passable (Json.passable_flat (.bool value) exact rfl).to_block admitted
  | .int value, _, _, admitted => .of_passable (Json.passable_int value).to_block admitted
  | .float _, exact, _, _ => nomatch exact
  | .text value, _, _, admitted => .of_passable (Json.passable_text value).to_block admitted
  | .array items, exact, depth, admitted => by
    rw [Json.toList_writeArray]
    exact .bracketed (by decide) admitted nofun
      (json.items items exact _ (json.list admitted))
  | .object fields, exact, depth, admitted => by
    rw [Json.isExact, Bool.and_eq_true] at exact
    rw [Json.toList_writeObject]
    exact .bracketed (by decide) admitted (fun _ => rfl)
      (json.fields fields exact.2 _ (pass.admits_block admitted))

theorem TakesJson.items (json : pass.TakesJson) : ∀ items : List Json,
    Json.itemsExact items = true → ∀ depth, pass.admits .block depth →
    pass.TakesIn depth (Json.writeItems items).toList
  | [], _, _, admitted => .of_passable (.nil .block) admitted
  | [item], exact, depth, admitted => by
    rw [Json.itemsExact, Bool.and_eq_true] at exact
    exact json.value item exact.1 depth admitted
  | item :: next :: rest, exact, depth, admitted => by
    rw [Json.itemsExact, Bool.and_eq_true] at exact
    have comma : pass.TakesIn depth [','] := .of_passable (.quiet rfl (.nil .block)) admitted
    rw [Json.writeItems, String.toList_append, String.toList_append]
    · exact ((json.value item exact.1 depth admitted).append comma).append
        (json.items (next :: rest) exact.2 depth admitted)
    · nofun

theorem TakesJson.fields (json : pass.TakesJson) : ∀ fields : List (String × Json),
    Json.fieldsExact fields = true → ∀ depth, pass.admits .block depth →
    pass.TakesIn depth (Json.writeFields fields).toList
  | [], _, _, admitted => .of_passable (.nil .block) admitted
  | [(key, value)], exact, depth, admitted => by
    rw [Json.fieldsExact, Bool.and_eq_true] at exact
    rw [Json.writeFields, String.toList_append, String.toList_append]
    exact ((TakesIn.of_passable (Json.passable_text key).to_block admitted).append
      (json.colon depth)).append (json.value value exact.1 depth admitted)
  | (key, value) :: next :: rest, exact, depth, admitted => by
    rw [Json.fieldsExact, Bool.and_eq_true] at exact
    have comma : pass.TakesIn depth [','] := .of_passable (.quiet rfl (.nil .block)) admitted
    rw [Json.writeFields, String.toList_append, String.toList_append, String.toList_append,
      String.toList_append]
    · exact ((((TakesIn.of_passable (Json.passable_text key).to_block admitted).append
        (json.colon depth)).append (json.value value exact.1 depth admitted)).append comma).append
        (json.fields (next :: rest) exact.2 depth admitted)
    · nofun

end

end Pass

/-! ### Cutting and looking for the end -/

theorem heldPass_takesJson : heldPass.TakesJson where
  colon _ _ := held_plain (by decide) (bounds_false _ (by decide))
    (fun slash => absurd slash (by decide)) (fun slash => absurd slash (by decide))
  list admitted := admitted

theorem balancedPass_takesJson (kind : (opener, closer) ∈ bracketPairs) :
    (balancedPass kind).TakesJson where
  colon depth rest := by
    have plain : ':' ∉ brackets := by decide
    exact balancedTail_plain kind plain depth rest
  list _ := trivial

theorem balanced_of_takesIn (kind : (opener, closer) ∈ bracketPairs)
    (inside : (balancedPass kind).TakesIn 0 text) :
    balanced opener closer (opener :: (text ++ [closer])) = some (text, []) := by
  have ends := balanced_of_passable kind (.nil .value) []
  rw [List.nil_append, balanced_cons, if_pos rfl] at ends
  rw [balanced_cons, if_pos rfl]
  refine (inside [closer]).trans ?_
  show text.foldr consCut (balancedTail opener closer .outside 0 [closer]) = _
  rw [ends, foldr_consCut, Option.map_some, List.append_nil]

theorem stays_object {fields : List (String × Json)} (exact : Json.fieldsExact fields = true) :
    Stays ('\x7b' :: (Json.writeFields fields).toList) (1, 0) := by
  intro rest
  have inside := heldPass_takesJson.fields fields exact (1, 0) (fun _ => Nat.le_refl 1)
  exact congrArg (Prod.map ('\x7b' :: ·) id) ((inside rest).trans (foldr_held _ _))

/-! ### Objects in lists -/

/-- A text is cut behind a brace, and its square brackets do not close in front of that. -/
def Interrupted (text : List Char) : Prop :=
  ∃ front back, text = front ++ '\x7d' :: back ∧ Stays front (1, 0) ∧
    ∀ depth, balancedTail '[' ']' .outside depth (front ++ ['\x7d']) = none

theorem Interrupted.append (interrupted : Interrupted text) (more : List Char) :
    Interrupted (text ++ more) := by
  obtain ⟨front, back, rfl, place, never⟩ := interrupted
  exact ⟨front, back ++ more, by rw [List.append_assoc]; rfl, place, never⟩

/-- Text in front changes nothing, if it is taken in or opens a square bracket. -/
theorem Interrupted.prepend (interrupted : Interrupted text) (stays : Stays before (0, 0))
    (goesOn : ∀ depth, ∃ deeper, ∀ rest, balancedTail '[' ']' .outside depth (before ++ rest) =
      before.foldr consCut (balancedTail '[' ']' .outside deeper rest)) :
    Interrupted (before ++ text) := by
  obtain ⟨front, back, rfl, place, never⟩ := interrupted
  refine ⟨before ++ front, back, by rw [List.append_assoc], stays.append place, fun depth => ?_⟩
  obtain ⟨deeper, goesOn⟩ := goesOn depth
  rw [List.append_assoc, goesOn, never, foldr_consCut, Option.map_none]

theorem Interrupted.behind_passable (interrupted : Interrupted text)
    (passable : Passable .list before) : Interrupted (before ++ text) := by
  refine interrupted.prepend (stays_of_passable (by decide) passable) fun depth =>
    ⟨depth, fun rest => ?_⟩
  have kind : ('[', ']') ∈ bracketPairs := by decide
  exact (balancedPass kind).passes passable trivial rest

theorem interrupted_object {fields : List (String × Json)}
    (exact : (Json.object fields).isExact = true) :
    Interrupted (Json.object fields).write.toList := by
  have kind : ('[', ']') ∈ bracketPairs := by decide
  have taken := (balancedPass_takesJson kind).value (.object fields) exact
  rw [Json.isExact, Bool.and_eq_true] at exact
  rw [Json.toList_writeObject, ← List.cons_append] at taken ⊢
  refine ⟨_, [], rfl, stays_object exact.2, fun depth => ?_⟩
  have whole := taken depth trivial []
  rw [List.append_nil] at whole
  exact whole.trans (foldr_consCut _ none)

mutual

/-- A value that is not flat is cut behind a brace, with its brackets still open. -/
theorem interrupted_value : ∀ value : Json, value.isExact = true → value.isFlat = false →
    Interrupted value.write.toList
  | .null, _, flat | .bool _, _, flat | .int _, _, flat | .float _, _, flat | .text _, _, flat =>
    nomatch flat
  | .array items, exact, flat => by
    have inside := interrupted_items items exact flat
    rw [Json.toList_writeArray]
    show Interrupted (['['] ++ _)
    exact (inside.append [']']).prepend (fun _ => rfl) fun depth => ⟨depth + 1, fun _ => rfl⟩
  | .object _, exact, _ => interrupted_object exact

theorem interrupted_items : ∀ items : List Json, Json.itemsExact items = true →
    Json.itemsFlat items = false → Interrupted (Json.writeItems items).toList
  | [], _, flat => nomatch flat
  | [item], exact, flat => by
    rw [Json.itemsExact, Bool.and_eq_true] at exact
    rw [Json.itemsFlat, Json.itemsFlat, Bool.and_true] at flat
    exact interrupted_value item exact.1 flat
  | item :: next :: rest, exact, flat => by
    rw [Json.itemsExact, Bool.and_eq_true] at exact
    rw [Json.itemsFlat, Bool.and_eq_false_iff] at flat
    rw [Json.writeItems, String.toList_append, String.toList_append]
    · by_cases first : item.isFlat = true
      · have others := flat.resolve_left (by rw [first]; nofun)
        have passable : Passable .list (item.write.toList ++ ",".toList) :=
          (Json.passable_flat item exact.1 first).append (.quiet rfl (.nil .list))
        exact (interrupted_items (next :: rest) exact.2 others).behind_passable passable
      · have inside := interrupted_value item exact.1 (Bool.eq_false_iff.mpr first)
        rw [List.append_assoc]
        exact inside.append _
    · nofun

end

end TypedScript
