/-
**Newlines that are lost.** The line of a statement is the line of the block around it, and the
newlines that are counted from there on. Not all of them are: a newline behind a backslash in an
earlier statement and a newline outside of brackets in the header of a block are dropped. Besides, the
newlines before a lambda are counted from some place in its statement on.
-/

import TypedScript.Proofs.Splitting.Interiors

namespace TypedScript

open Text

/-- How far one of the blocks around a place has been read. -/
structure Layer where
  /-- The braces and parentheses that are open in the statement being read. -/
  opened : Nat × Nat
  own : List Mark
  /-- The statement being read up to the block that is open. -/
  header : List Mark
  /-- The newlines behind a backslash in earlier statements. -/
  escaped : Nat
  deriving DecidableEq, Repr

/-- Behind a statement. -/
def Layer.start (escaped : Nat) : Layer :=
  ⟨(0, 0), [], [], escaped⟩

/-- One more mark in the block. -/
def Layer.take (layer : Layer) (mark : Mark) : Layer :=
  let own := layer.own ++ [mark]
  let opened := bracketsBehind layer.opened mark.glyph
  if mark.ends layer.opened || (layer.own.isEmpty && isBlank mark.char) then
    .start (layer.escaped + escapes own)
  else ⟨opened, own, if opened.1 = 0 then own else layer.header, layer.escaped⟩

/-- One more mark in nested blocks: the innermost one is left with its brace, and one more is entered
with another brace. -/
def Layer.nest : List Layer → Mark → List Layer
  | [], _ => []
  | layer :: inner, mark =>
    let next := layer.take mark
    if next.opened.1 = 0 then [next]
    else if layer.opened.1 = 0 then [next, .start 0]
    else next :: nest inner mark

/-- How far the script and the blocks that are open behind marks have been read. -/
def layers (marks : List Mark) : List Layer :=
  marks.foldl Layer.nest [.start 0]

section Layers

variable {earlier own header inside : List Mark}

theorem Layer.take_of_inside (layer : Layer) (mark : Mark) (inside : mark.ends layer.opened = false)
    (shown : layer.own = [] → isBlank mark.char = false) :
    layer.take mark = ⟨bracketsBehind layer.opened mark.glyph, layer.own ++ [mark],
      if (bracketsBehind layer.opened mark.glyph).1 = 0 then layer.own ++ [mark] else layer.header,
      layer.escaped⟩ := by
  have goesOn : (mark.ends layer.opened || (layer.own.isEmpty && isBlank mark.char)) = false := by
    rw [inside, Bool.false_or, Bool.and_eq_false_iff, List.isEmpty_eq_false_iff]
    by_cases none : layer.own = []
    · exact .inr (shown none)
    · exact .inl none
  rw [Layer.take, goesOn]
  rfl

/-- **A statement that is not at its end** is read in one layer. Further ones are left with the last
brace. -/
theorem layers_of_open (isOpen : Open own) (first : ∀ mark ∈ own.head?, isBlank mark.char = false)
    (escaped : Nat) : ∃ header inner,
      own.foldl Layer.nest [.start escaped] =
          ⟨bracketsFrom (0, 0) own, own, header, escaped⟩ :: inner ∧
        ((bracketsFrom (0, 0) own).1 = 0 → header = own ∧ inner = []) := by
  -- The last mark decides whether a block is open; what was read inside of one is of no interest.
  induction own using List.reverseRecOn with
  | nil => exact ⟨[], [], rfl, fun _ => ⟨rfl, rfl⟩⟩
  | append_singleton front mark ih =>
    have before : Open front := fun first other back cut =>
      isOpen first other (back ++ [mark]) (by rw [cut]; simp)
    have shown : front = [] → isBlank mark.char = false := by
      rintro rfl
      exact first mark rfl
    obtain ⟨header, inner, read, _⟩ := ih before fun other member => first other (by
      rw [List.head?_append_of_ne_nil _ (List.ne_nil_of_mem (List.mem_of_mem_head? member))]
      exact member)
    have next := Layer.take_of_inside ⟨bracketsFrom (0, 0) front, front, header, escaped⟩ mark
      (isOpen front mark [] rfl) shown
    have opened : bracketsBehind (bracketsFrom (0, 0) front) mark.glyph =
      bracketsFrom (0, 0) (front ++ [mark]) := (bracketsFrom_append _ _ [mark]).symm
    rw [opened] at next
    rw [List.foldl_append, read, List.foldl_cons, List.foldl_nil, Layer.nest, next]
    by_cases closed : (bracketsFrom (0, 0) (front ++ [mark])).1 = 0
    · exact ⟨_, _, by rw [if_pos closed, if_pos closed], fun _ => ⟨rfl, rfl⟩⟩
    · refine ⟨header,
        if (bracketsFrom (0, 0) front).1 = 0 then [.start 0] else Layer.nest inner mark, ?_,
        fun zero => absurd zero closed⟩
      rw [if_neg closed, if_neg closed]
      split_ifs <;> rfl

/-- **Behind a statement** there is one layer. -/
theorem layers_of_concluded (concluded : Concluded earlier) :
    layers earlier = [.start (escapes earlier)] := by
  unfold layers
  induction concluded with
  | start => rfl
  | @blank earlier mark _ blank ih =>
    have next : (Layer.start (escapes earlier)).take mark =
        .start (escapes (earlier ++ [mark])) := by
      rw [Layer.take, Layer.start]
      simp [blank]
    rw [List.foldl_append, ih, List.foldl_cons, List.foldl_nil, Layer.nest, next]
    rfl
  | @statement earlier own mark _ first isOpen ends ih =>
    obtain ⟨header, inner, read, _⟩ := layers_of_open isOpen first (escapes earlier)
    have next : Layer.take ⟨bracketsFrom (0, 0) own, own, header, escapes earlier⟩ mark =
        .start (escapes (earlier ++ own ++ [mark])) := by
      rw [Layer.take, ends, List.append_assoc, escapes_append earlier]
      rfl
    rw [List.foldl_append, List.foldl_append, ih, read, List.foldl_cons, List.foldl_nil, Layer.nest,
      next]
    rfl

/-- **Inside a block** the layers around it stay. -/
theorem foldl_nest_enclosed {layer : Layer} {inner : List Layer}
    (enclosed : Enclosed layer.opened inside) (present : layer.own ≠ []) :
    ∃ outer, inside.foldl Layer.nest (layer :: inner) = outer :: inside.foldl Layer.nest inner ∧
      outer.header = layer.header ∧ outer.escaped = layer.escaped := by
  induction inside generalizing layer inner with
  | nil => exact ⟨layer, rfl, rfl, rfl⟩
  | cons mark rest ih =>
    have below : layer.opened.1 ≠ 0 := enclosed [] List.nil_prefix
    have stays : (bracketsBehind layer.opened mark.glyph).1 ≠ 0 := enclosed [mark] (by simp)
    have goesOn : mark.ends layer.opened = false := by
      by_contra ends
      rcases Splitter.ends_iff.mp (Bool.not_eq_false _ ▸ ends) with ⟨_, zero⟩ | ⟨_, zero⟩
      · exact below (by rw [zero])
      · exact stays (by rw [zero])
    have next := layer.take_of_inside mark goesOn fun none => absurd none present
    rw [if_neg stays] at next
    have deeper : Layer.nest (layer :: inner) mark = layer.take mark :: Layer.nest inner mark := by
      rw [Layer.nest, next, if_neg stays, if_neg below]
    have behind : Enclosed (layer.take mark).opened rest := by
      rw [next]
      exact fun front short => enclosed (mark :: front) (List.cons_prefix_cons.mpr ⟨rfl, short⟩)
    obtain ⟨outer, read, same, count⟩ := ih behind (by rw [next]; simp)
    rw [next] at same count
    refine ⟨outer, ?_, same, count⟩
    rw [List.foldl_cons, deeper, read, List.foldl_cons]

/-- **A block that is opened adds one layer.** -/
theorem layers_block (concluded : Concluded earlier) (isOpen : Open header)
    (first : ∀ mark ∈ header.head?, isBlank mark.char = false)
    (closed : (bracketsFrom (0, 0) header).1 = 0)
    (enclosed : Enclosed (bracketsFrom (0, 0) (header ++ [.code '{'])) inside) :
    ∃ outer, layers (earlier ++ (header ++ .code '{' :: inside)) = outer :: layers inside ∧
      outer.header = header ∧ outer.escaped = escapes earlier := by
  obtain ⟨front, inner, read, outermost⟩ := layers_of_open isOpen first (escapes earlier)
  obtain ⟨rfl, rfl⟩ := outermost closed
  set layer : Layer := ⟨bracketsFrom (0, 0) front, front, front, escapes earlier⟩
  have below : (bracketsBehind layer.opened (Mark.code '{').glyph).1 ≠ 0 := Nat.succ_ne_zero _
  have next := layer.take_of_inside (.code '{') rfl fun _ => rfl
  rw [if_neg below] at next
  have opens : Layer.nest [layer] (.code '{') = [layer.take (.code '{'), .start 0] := by
    rw [Layer.nest, next, if_neg below, if_pos closed]
  have around : Enclosed (layer.take (.code '{')).opened inside := by
    rw [next]
    rwa [bracketsFrom_append] at enclosed
  obtain ⟨outer, nested, same, count⟩ := foldl_nest_enclosed around (by rw [next]; simp)
  rw [next] at same count
  refine ⟨outer, ?_, same, count⟩
  have concluded := layers_of_concluded concluded
  unfold layers at concluded ⊢
  rw [List.foldl_append, concluded, List.foldl_append, read, List.foldl_cons, opens]
  exact nested

end Layers

/-! ### Lost newlines -/

/-- The newlines that are dropped in a block: those behind a backslash in earlier statements, and
those outside of brackets and literals in the header of the block inside of it. -/
def Layer.dropped (layer : Layer) : Nat :=
  layer.escaped + (newlines layer.header - newlines (keptFrom (0, 0) layer.header))

def newlinesBeforeLambda (header : List Char) : Nat :=
  if "=>".toList.isSuffixOf (trimEnd header) then
    (header.reverse.dropWhile fun c => c != '(').count '\n'
  else 0

/-- The newlines that are counted from some place on only, if the block inside of a block is that of
a lambda: those in brackets and literals before it. -/
def Layer.restarted (layer : Layer) : Nat :=
  newlinesBeforeLambda (keptText layer.header)

/-- The newlines that are dropped in marks and in the blocks around their end. -/
def droppedIn (marks : List Mark) : Nat :=
  ((layers marks).map Layer.dropped).sum

/-- The newlines that are counted from some place on only, before the blocks around the end of
marks. -/
def restartedIn (marks : List Mark) : Nat :=
  ((layers marks).map Layer.restarted).sum

theorem droppedIn_of_concluded {earlier : List Mark} (concluded : Concluded earlier) :
    droppedIn earlier = escapes earlier := by
  rw [droppedIn, layers_of_concluded concluded]
  rfl

theorem restartedIn_of_concluded {earlier : List Mark} (concluded : Concluded earlier) :
    restartedIn earlier = 0 := by
  rw [restartedIn, layers_of_concluded concluded]
  rfl

/-- What the header of a block loses. -/
theorem lost_block {earlier header inside : List Mark} (concluded : Concluded earlier)
    (isOpen : Open header) (first : ∀ mark ∈ header.head?, isBlank mark.char = false)
    (closed : (bracketsFrom (0, 0) header).1 = 0)
    (enclosed : Enclosed (bracketsFrom (0, 0) (header ++ [.code '{'])) inside) :
    droppedIn (earlier ++ (header ++ .code '{' :: inside)) =
      escapes earlier + (newlines header - newlines (keptFrom (0, 0) header)) + droppedIn inside ∧
    restartedIn (earlier ++ (header ++ .code '{' :: inside)) =
      newlinesBeforeLambda (keptText header) + restartedIn inside := by
  obtain ⟨outer, nested, same, count⟩ := layers_block concluded isOpen first closed enclosed
  rw [droppedIn, restartedIn, nested, List.map_cons, List.map_cons, List.sum_cons, List.sum_cons,
    Layer.dropped, Layer.restarted, same, count]
  exact ⟨rfl, rfl⟩

theorem trimEnd_append_of_blanks {text blanks : List Char} (blank : ∀ c ∈ blanks, isBlank c = true)
    (last : ∀ c ∈ text.getLast?, isBlank c = false) : trimEnd (text ++ blanks) = text := by
  rw [trimEnd_eq_rdropWhile, List.rdropWhile, List.reverse_append, List.dropWhile_append_of_pos]
  · exact trimEnd_eq_self last
  · exact fun c member => blank c (List.mem_reverse.mp member)

theorem count_le_newlinesBeforeLambda {skipped before : List Char} (arrow : EndsInArrow before) :
    skipped.count '\n' ≤ newlinesBeforeLambda (skipped ++ before) := by
  obtain ⟨front, blanks, whole, parenthesis, blank⟩ := arrow
  have trimmed : trimEnd (skipped ++ before) = skipped ++ front ++ "=>".toList := by
    have ends : skipped ++ before = skipped ++ front ++ "=>".toList ++ blanks := by
      simp [whole]
    rw [ends]
    refine trimEnd_append_of_blanks blank ?_
    rw [List.getLast?_append_of_ne_nil _ (by decide)]
    decide
  have opened : '(' ∈ before.reverse := by
    rw [List.mem_reverse, whole]
    exact List.mem_append_left _ parenthesis
  have found : before.reverse.dropWhile (fun c => c != '(') ≠ [] := by
    rw [ne_eq, List.dropWhile_eq_nil_iff]
    exact fun none => absurd (none '(' opened) (by decide)
  rw [newlinesBeforeLambda, trimmed,
    if_pos (List.isSuffixOf_iff_suffix.mpr (List.suffix_append _ _)), List.reverse_append,
    List.dropWhile_append, if_neg (by rwa [List.isEmpty_iff]), List.count_append, List.count_reverse]
  exact Nat.le_add_left _ _

end TypedScript
