/-
**Scripts behind one another.** Behind a semicolon outside of all brackets, literals and comments a
script is read as if nothing stood before it, but for an `else`: it looks for the `if` that was read
last, and finds one of the script before if no statement in between can be read.

* `opensWithElse`, `takesElse`: the statements that can meet over the semicolon.
-/

import TypedScript.Proofs.Lines.Readers
import TypedScript.Proofs.Parsing.Commands

namespace TypedScript

open Text

variable {stops : Prop} {lines bound : Nat} {piece : Piece} {before : List Char}

/-! ### Readings -/

namespace Reading

variable {α β γ : Type} {reading : Reading α}

theorem bind_assoc (first : α → Reading β) (second : β → Reading γ) :
    (reading >>= first) >>= second = reading >>= fun value => first value >>= second := by
  show (reading.andThen first).andThen second =
    reading.andThen fun value => (first value).andThen second
  unfold andThen
  rcases reading with ⟨collected, stop | value⟩
  · rfl
  · dsimp only
    rcases first value with ⟨further, stop | result⟩
    · rfl
    · dsimp only
      rw [List.append_assoc]

theorem bind_of_ok {value : α} (next : α → Reading β) (found : reading.outcome = .ok value) :
    reading >>= next = ⟨reading.collected ++ (next value).collected, (next value).outcome⟩ := by
  show reading.andThen next = _
  unfold andThen
  rw [found]

theorem Moves.refl : Moves True 0 id reading reading := by
  refine ⟨(List.map_id _).symm, ?_, fun _ => trivial⟩
  rcases reading.outcome with (diagnostic | _) | value <;> rfl

/-- What is reported. -/
def causes (reading : Reading α) : List Cause :=
  reading.collected.map Diagnostic.cause

theorem Moves.causes {move : α → β} {moved : Reading β}
    (moves : Moves stops lines move reading moved) : moved.causes = reading.causes := by
  rw [Reading.causes, moves.collected, List.map_map]
  rfl

theorem recover_ok (enough : reading.outcome ≠ .error .exhausted) :
    ∃ value?, reading.recover.outcome = .ok value? := by
  unfold recover
  split
  · exact ⟨_, rfl⟩
  · exact ⟨_, rfl⟩
  · exact absurd ‹_› enough

end Reading

/-! ### Pieces -/

/-- What a statement adds to those before it. -/
inductive Piece where
  /-- Nothing, as it is empty or cannot be read. -/
  | nothing
  | command (stmt : Stmt)
  | branch (line : Nat) (added : Otherwise)

/-- One statement, whatever stands before it. -/
def readPiece (inner : Inner) (statement : Statement) : Reading Piece :=
  if statement.text.isEmpty then .done .nothing
  else if leadingWord statement.text = "else".toList then do
    match ← (readElse inner statement.text statement.line).recover with
    | some added => return .branch statement.line added
    | none => return .nothing
  else do
    match ← (readCommand inner statement.text statement.line).recover with
    | some stmt => return .command stmt
    | none => return .nothing

/-- Adds a piece to the statements read so far, the last one first. -/
def Piece.join (read : List Stmt) : Piece → Reading (List Stmt)
  | .nothing => .done read
  | .command stmt => .done (stmt :: read)
  | .branch line added => attachElse added line read

def Piece.moved (lines : Nat) : Piece → Piece
  | .nothing => .nothing
  | .command stmt => .command (stmt.moved lines)
  | .branch line added => .branch (line + lines) (added.moved lines)

section Pieces

variable {inner inner' : Inner} {statement : Statement} {statements : List Statement}

/-- **A statement is read by itself and then added.** -/
theorem readStatement_eq_join (read : List Stmt) :
    readStatement inner read statement = readPiece inner statement >>= Piece.join read := by
  unfold readStatement readPiece
  split_ifs
  · rfl
  · rw [Reading.bind_assoc]
    congr 1
    funext added?
    cases added? <;> rfl
  · rw [Reading.bind_assoc]
    congr 1
    funext stmt?
    cases stmt? <;> rfl

theorem readPiece_moves (moves : inner.Moves stops lines bound inner')
    (short : statement.text.length ≤ bound) :
    (readPiece inner statement).Moves stops lines (Piece.moved lines)
      (readPiece inner' (statement.moved lines)) := by
  unfold readPiece
  refine .ite (fun _ => .done) fun _ =>
    .ite (fun _ => .bind (readElse_moves moves short).recover fun added? _ => ?_)
      fun _ => .bind (readCommand_moves moves short).recover fun stmt? _ => ?_
  · cases added? <;> exact .pure rfl
  · cases stmt? <;> exact .pure rfl

theorem readPiece_ok {depth : Nat} (short : statement.text.length ≤ depth) :
    ∃ piece, (readPiece (Inner.upTo depth) statement).outcome = .ok piece := by
  have moves := Inner.upTo_moves 0 depth depth
  rw [min_self] at moves
  unfold readPiece
  split_ifs
  · exact ⟨_, rfl⟩
  · obtain ⟨added?, found⟩ :=
      Reading.recover_ok (readElse_moves moves short).enough
    rw [Reading.bind_of_ok _ found]
    cases added? <;> exact ⟨_, rfl⟩
  · obtain ⟨stmt?, found⟩ :=
      Reading.recover_ok (readCommand_moves moves short).enough
    rw [Reading.bind_of_ok _ found]
    cases stmt? <;> exact ⟨_, rfl⟩

theorem readStatements_append (read : List Stmt) (others : List Statement) :
    readStatements inner read (statements ++ others) =
      readStatements inner read statements >>= fun done =>
        readStatements inner done.reverse others := by
  induction statements generalizing read with
  | nil =>
    rw [List.nil_append, readStatements]
    show _ = readStatements inner read.reverse.reverse others
    rw [List.reverse_reverse]
  | cons statement rest ih =>
    rw [List.cons_append, readStatements, readStatements, Reading.bind_assoc]
    congr 1
    funext next
    exact ih next

theorem readStatements_cons (found : (readPiece inner statement).outcome = .ok piece)
    (read : List Stmt) :
    readStatements inner read (statement :: statements) =
      ⟨(readPiece inner statement).collected ++
        (piece.join read >>= fun next => readStatements inner next statements).collected,
        (piece.join read >>= fun next => readStatements inner next statements).outcome⟩ := by
  rw [readStatements, readStatement_eq_join, Reading.bind_assoc, Reading.bind_of_ok _ found]

/-! ### Statements further up -/

theorem Piece.join_behind (piece : Piece) (last : Stmt) (earlier base : List Stmt) :
    (piece.join (last :: earlier)).Moves True 0 (· ++ base) (piece.join (last :: earlier ++ base)) ∧
      (piece.join (last :: earlier)).Entails (fun _ => True) (· ≠ []) fun _ => True := by
  cases piece with
  | nothing | command => exact ⟨.done, .done (List.cons_ne_nil _ _) trivial⟩
  | branch line added =>
    rw [Piece.join, Piece.join, List.cons_append, attachElse, attachElse]
    cases last.attach? added with
    | none =>
      refine ⟨.given, fun _ _ => trivial, fun _ _ => trivial, ?_, fun _ _ _ => trivial⟩
      rintro _ ⟨⟩
      exact List.cons_ne_nil _ _
    | some joined => exact ⟨.done, .done (List.cons_ne_nil _ _) trivial⟩

/-- Behind a statement that was read, nothing further up matters. -/
theorem readStatements_behind (base : List Stmt) {read : List Stmt} (present : read ≠ []) :
    (readStatements inner read statements).Moves True 0 (base.reverse ++ ·)
      (readStatements inner (read ++ base) statements) := by
  induction statements generalizing read with
  | nil =>
    rw [readStatements, readStatements, List.reverse_append]
    exact .done
  | cons statement rest ih =>
    obtain ⟨last, earlier, rfl⟩ := List.exists_cons_of_ne_nil present
    rw [readStatements, readStatements, readStatement_eq_join, readStatement_eq_join]
    have first : (readPiece inner statement >>= Piece.join (last :: earlier)).Moves True 0 (· ++ base)
        (readPiece inner statement >>= Piece.join (last :: earlier ++ base)) :=
      .bind .refl fun piece _ => (piece.join_behind last earlier base).1
    have nonempty : (readPiece inner statement >>= Piece.join (last :: earlier)).Entails
        (fun _ => True) (· ≠ []) fun _ => True :=
      .seq .any fun piece _ => (piece.join_behind last earlier base).2
    exact .bind first fun next found => ih (nonempty.kind next found)

/-! ### An `else` and the `if` before it -/

/-- Whether an `else` joins the statement read last: an `if` whose branches end in no plain `else`. -/
def takesElse : List Stmt → Bool
  | [] => false
  | last :: _ => (last.attach? .nothing).isSome

def opensWithElse (inner : Inner) : List Statement → Bool
  | [] => false
  | statement :: rest =>
    match (readPiece inner statement).outcome with
    | .ok (.branch _ _) => true
    | .ok (.command _) => false
    | _ => opensWithElse inner rest

theorem Otherwise.attach?_isSome (added otherwise : Otherwise) :
    (added.attach? otherwise).isSome = (Otherwise.nothing.attach? otherwise).isSome := by
  cases otherwise with
  | nothing | block => rfl
  | elseIf line condition body otherwise =>
    have same := attach?_isSome added otherwise
    rw [Otherwise.attach?, Otherwise.attach?]
    cases first : added.attach? otherwise <;>
      cases second : Otherwise.nothing.attach? otherwise <;> simp_all

/-- What joins a statement does not matter. -/
theorem takesElse_cons (added : Otherwise) (last : Stmt) (earlier : List Stmt) :
    takesElse (last :: earlier) = (last.attach? added).isSome := by
  obtain ⟨line, kind⟩ := last
  cases kind with
  | branch condition body otherwise =>
    have same := Otherwise.attach?_isSome added otherwise
    rw [takesElse, Stmt.attach?, Stmt.attach?]
    cases first : added.attach? otherwise <;>
      cases second : Otherwise.nothing.attach? otherwise <;> simp_all
  | _ => rfl

theorem Piece.join_branch (line : Nat) (added : Otherwise) (read : List Stmt) :
    (takesElse read = true ∧ ∃ next, (branch line added).join read = .done next) ∨
      (takesElse read = false ∧
        (branch line added).join read = ⟨[⟨.danglingElse, line⟩], .ok read⟩) := by
  cases read with
  | nil => exact .inr ⟨rfl, rfl⟩
  | cons last earlier =>
    rw [takesElse_cons added, join, attachElse]
    cases last.attach? added with
    | none => exact .inr ⟨rfl, rfl⟩
    | some joined => exact .inl ⟨rfl, _, rfl⟩

theorem opensWithElse_moved (moves : inner.Moves stops lines bound inner')
    (short : ∀ statement ∈ statements, statement.text.length ≤ bound) :
    opensWithElse inner' (statements.map (Statement.moved lines)) =
      opensWithElse inner statements := by
  induction statements with
  | nil => rfl
  | cons statement rest ih =>
    obtain ⟨first, others⟩ := List.forall_mem_cons.mp short
    rw [List.map_cons, opensWithElse, opensWithElse, (readPiece_moves moves first).outcome,
      ih others]
    rcases (readPiece inner statement).outcome with stop | piece
    · rfl
    · cases piece <;> rfl

theorem readStatements_cons_causes (found : (readPiece inner statement).outcome = .ok piece)
    (read : List Stmt) :
    (readStatements inner read (statement :: statements)).causes =
      (readPiece inner statement).causes ++
        (piece.join read >>= fun next => readStatements inner next statements).causes := by
  rw [readStatements_cons found]
  exact List.map_append

/-- **What stands before statements** keeps them from reporting an `else` without an `if`, and from
nothing else; and only if an `if` stands there and an `else` opens the statements. -/
theorem readStatements_causes (base : List Stmt)
    (ok : ∀ statement ∈ statements, ∃ piece, (readPiece inner statement).outcome = .ok piece) :
    ∃ count, (readStatements inner [] statements).causes.Perm
        ((readStatements inner base statements).causes ++ List.replicate count .danglingElse) ∧
      (0 < count ↔ takesElse base = true ∧ opensWithElse inner statements = true) := by
  induction statements generalizing base with
  | nil => exact ⟨0, .refl _, by simp [opensWithElse]⟩
  | cons statement rest ih =>
    obtain ⟨⟨piece, found⟩, others⟩ := List.forall_mem_cons.mp ok
    rw [readStatements_cons_causes found, readStatements_cons_causes found, opensWithElse, found]
    simp only [List.append_assoc]
    cases piece with
    | nothing =>
      obtain ⟨count, same, captured⟩ := ih base others
      exact ⟨count, same.append_left _, captured⟩
    | command stmt =>
      have behind : (readStatements inner (stmt :: base) rest).causes =
          (readStatements inner [stmt] rest).causes :=
        (readStatements_behind base (List.cons_ne_nil stmt [])).causes
      refine ⟨0, ?_, by simp⟩
      show (_ ++ (readStatements inner [stmt] rest).causes).Perm
        (_ ++ ((readStatements inner (stmt :: base) rest).causes ++ []))
      rw [behind, List.append_nil]
    | branch line added =>
      rcases Piece.join_branch line added base with ⟨takes, next, joins⟩ | ⟨refuses, dangling⟩
      · -- the branch is reported only where no `if` stands before it
        obtain ⟨count, same, _⟩ := ih next others
        refine ⟨count + 1, ?_, by simp [takes]⟩
        rw [joins]
        show (_ ++ .danglingElse :: (readStatements inner [] rest).causes).Perm
          (_ ++ ((readStatements inner next rest).causes ++ _))
        rw [List.replicate_succ]
        exact ((same.cons _).trans List.perm_middle.symm).append_left _
      · obtain ⟨count, same, captured⟩ := ih base others
        refine ⟨count, ?_, ?_⟩
        · rw [dangling]
          exact (same.cons _).append_left _
        · simp [captured, refuses]

theorem readStatements_quiet (base : List Stmt)
    (ok : ∀ statement ∈ statements, ∃ piece, (readPiece inner statement).outcome = .ok piece)
    (quiet : (readStatements inner [] statements).collected = []) :
    (readStatements inner [] statements).Moves True 0 (base.reverse ++ ·)
      (readStatements inner base statements) := by
  induction statements with
  | nil =>
    rw [readStatements, readStatements]
    exact .pure (List.append_nil _).symm
  | cons statement rest ih =>
    obtain ⟨⟨piece, found⟩, others⟩ := List.forall_mem_cons.mp ok
    rw [readStatements_cons found] at quiet
    obtain ⟨first, later⟩ := List.append_eq_nil_iff.mp quiet
    rw [readStatements_cons found, readStatements_cons found, first]
    cases piece with
    | nothing => exact ih others later
    | command stmt => exact readStatements_behind base (List.cons_ne_nil stmt [])
    | branch line added => exact absurd later (List.cons_ne_nil _ _)

theorem readStatements_ok
    (ok : ∀ statement ∈ statements, ∃ piece, (readPiece inner statement).outcome = .ok piece)
    (read : List Stmt) : ∃ body, (readStatements inner read statements).outcome = .ok body := by
  induction statements generalizing read with
  | nil => exact ⟨_, rfl⟩
  | cons statement rest ih =>
    obtain ⟨⟨piece, found⟩, others⟩ := List.forall_mem_cons.mp ok
    obtain ⟨next, joined⟩ : ∃ next, (piece.join read).outcome = .ok next := by
      cases piece with
      | nothing | command => exact ⟨_, rfl⟩
      | branch line added =>
        rcases Piece.join_branch line added read with ⟨_, next, joins⟩ | ⟨_, dangling⟩
        · exact ⟨next, by rw [joins]; rfl⟩
        · exact ⟨read, by rw [dangling]⟩
    rw [readStatements_cons found, Reading.bind_of_ok _ joined]
    exact ih others next

end Pieces

/-! ### Behind a semicolon -/

open Splitter

/-- The lines that the cutting has counted behind a text, the first one apart. -/
def linesPassed (text : List Char) : Nat :=
  ((start 1).run text).line - 1

/-- **Behind a semicolon** outside of all brackets, literals and comments the cutting starts again. -/
theorem splitStatements_semicolon (after : List Char)
    (inCode : ((start 1).run before).nesting.inCode)
    (outer : ((start 1).run before).outermost = true) :
    splitStatements (before ++ ';' :: after) 1 =
      ((splitStatements before 1).1 ++
          (splitStatements after 1).1.map (Statement.moved (linesPassed before)),
        (splitStatements before 1).2 ++
          (splitStatements after 1).2.map (Diagnostic.moved (linesPassed before))) := by
  obtain ⟨line, braces, parens, _, _⟩ := settled_spec ((start 1).run before)
  obtain ⟨noBraces, noParens⟩ := (outermost_iff _).mp outer
  have further : ((start 1).run before).settled.line = 1 + linesPassed before := by
    have onward : 1 ≤ ((start 1).run before).line :=
      (run_onward (rfl : (start 1).mode = .code) before).line
    unfold linesPassed
    omega
  have settled_outer : ((start 1).run before).settled.outermost = true := by
    rw [outermost_iff, braces, parens]
    exact ⟨noBraces, noParens⟩
  have restarts : (start 1).run (before ++ [';']) = ((start 1).run []).behind
      ⟨linesPassed before, ((start 1).run before).finish.statements,
        ((start 1).run before).finish.diagnostics⟩ := by
    have mode := settled_mode inCode
    rw [run_concat, step_settled inCode (by decide) (fun _ => by decide), finish_settled]
    rw [noBraces] at braces
    rw [noParens] at parens
    generalize ((start 1).run before).settled = splitter at *
    simp [code, settled_outer, flush, behind, run, start, mode, braces, parens, further]
  have cut := splitStatements_restarts restarts after
  rwa [List.append_assoc, List.singleton_append] at cut

/-! ### Whole scripts -/

/-- The statements of a script that can be read, also if others cannot. -/
def readable (source : List Char) : List Stmt :=
  match (readBody (Inner.within source) source 1).outcome with
  | .ok statements => statements
  | .error _ => []

/-- An `else` of the second script joins an `if` of the first one: no statement of the second script
before it can be read, and the last statement of the first script that can be read is an `if` that
takes it. -/
def Captures (before after : List Char) : Prop :=
  takesElse (readable before).reverse = true ∧
    opensWithElse (Inner.within after) (splitStatements after 1).1 = true

instance (before after : List Char) : Decidable (Captures before after) :=
  inferInstanceAs (Decidable (_ ∧ _))

theorem parse_of_readStatements {source : List Char} {body : List Stmt}
    (found : (readStatements (Inner.within source) [] (splitStatements source 1).1).outcome =
      .ok body) :
    readable source = body ∧
    (parse source).diagnostics = (splitStatements source 1).2 ++
      (readStatements (Inner.within source) [] (splitStatements source 1).1).collected ∧
    ((parse source).diagnostics = [] → (parse source).statements = body) := by
  have read : readBody (Inner.within source) source 1 =
      ⟨(splitStatements source 1).2 ++
        (readStatements (Inner.within source) [] (splitStatements source 1).1).collected,
        .ok body⟩ := by
    rw [← found]
    rfl
  unfold readable parse
  rw [read]
  refine ⟨rfl, ?_⟩
  dsimp only
  split
  · rename_i statements quiet same
    rw [quiet]
    exact ⟨rfl, fun _ => (Except.ok.inj same).symm⟩
  · rename_i reported
    exact ⟨rfl, fun none => absurd none (fun none => reported body none rfl)⟩

theorem length_of_mem_moved {text : List Char} {statement : Statement}
    (member : statement ∈ (splitStatements text 1).1.map (Statement.moved lines)) :
    statement.text.length ≤ text.length := by
  obtain ⟨unmoved, among, rfl⟩ := List.mem_map.mp member
  exact (length_of_mem_splitStatements among :)

/-- **The whole is read** as the first script, and then as the second one, which stands further down
and behind the statements of the first one. -/
theorem parse_joined (after : List Char) {first : List Stmt}
    (inCode : ((start 1).run before).nesting.inCode)
    (outer : ((start 1).run before).outermost = true)
    (found : (readStatements (Inner.within before) [] (splitStatements before 1).1).outcome =
      .ok first) :
    let second := readStatements (Inner.within (before ++ ';' :: after)) first.reverse
      ((splitStatements after 1).1.map (Statement.moved (linesPassed before)))
    (parse (before ++ ';' :: after)).diagnostics =
      ((splitStatements before 1).2 ++
        (splitStatements after 1).2.map (Diagnostic.moved (linesPassed before))) ++
      ((readStatements (Inner.within before) [] (splitStatements before 1).1).collected ++
        second.collected) ∧
    ((parse (before ++ ';' :: after)).diagnostics = [] → ∀ body, second.outcome = .ok body →
      (parse (before ++ ';' :: after)).statements = body) := by
  intro second
  have length : (before ++ ';' :: after).length = before.length + (after.length + 1) :=
    List.length_append
  have cut := splitStatements_semicolon after inCode outer
  have read : readStatements (Inner.within (before ++ ';' :: after)) []
      (splitStatements (before ++ ';' :: after) 1).1 =
        ⟨(readStatements (Inner.within before) [] (splitStatements before 1).1).collected ++
          second.collected, second.outcome⟩ := by
    have same : readStatements (Inner.within (before ++ ';' :: after)) []
        (splitStatements before 1).1 =
          readStatements (Inner.within before) [] (splitStatements before 1).1 := by
      refine readStatements_upTo [] fun statement member => ?_
      have short := length_of_mem_splitStatements member
      omega
    rw [cut, readStatements_append, same, Reading.bind_of_ok _ found]
  obtain ⟨body, ok⟩ : ∃ body, second.outcome = .ok body := by
    refine readStatements_ok (fun statement member => readPiece_ok ?_) _
    have short := length_of_mem_moved member
    omega
  obtain ⟨_, diagnostics, statements⟩ := parse_of_readStatements
    ((congrArg Reading.outcome read).trans ok)
  rw [read, cut] at diagnostics
  refine ⟨diagnostics, fun quiet other same => ?_⟩
  rw [statements quiet]
  exact Except.ok.inj (ok.symm.trans same)

theorem readStatements_within (source : List Char) : ∃ body,
    (readStatements (Inner.within source) [] (splitStatements source 1).1).outcome = .ok body :=
  readStatements_ok (fun _ member => readPiece_ok (length_of_mem_splitStatements member)) []

theorem readStatements_further (before after : List Char) :
    (readStatements (Inner.within after) [] (splitStatements after 1).1).Moves False
      (linesPassed before) (List.map (Stmt.moved (linesPassed before)))
      (readStatements (Inner.within (before ++ ';' :: after)) []
        ((splitStatements after 1).1.map (Statement.moved (linesPassed before)))) ∧
    opensWithElse (Inner.within (before ++ ';' :: after))
        ((splitStatements after 1).1.map (Statement.moved (linesPassed before))) =
      opensWithElse (Inner.within after) (splitStatements after 1).1 ∧
    ∀ statement ∈ (splitStatements after 1).1.map (Statement.moved (linesPassed before)),
      ∃ piece, (readPiece (Inner.within (before ++ ';' :: after)) statement).outcome = .ok piece := by
  have longer : after.length ≤ (before ++ ';' :: after).length := by
    rw [List.length_append, List.length_cons]
    omega
  have moves := Inner.upTo_moves (linesPassed before) after.length (before ++ ';' :: after).length
  rw [min_eq_left longer] at moves
  have short : ∀ statement ∈ (splitStatements after 1).1, statement.text.length ≤ after.length :=
    fun _ member => length_of_mem_splitStatements member
  exact ⟨readStatements_moves moves [] short, opensWithElse_moved moves short,
    fun _ member => readPiece_ok ((length_of_mem_moved member).trans longer)⟩

/-- What is missing from the diagnostics of both scripts, if the whole is parsed. -/
theorem joined_causes (before after : List Char) (inCode : ((start 1).run before).nesting.inCode)
    (outer : ((start 1).run before).outermost = true) : ∃ count,
    ((parse before).diagnostics.map Diagnostic.cause ++
      (parse after).diagnostics.map Diagnostic.cause).Perm
        ((parse (before ++ ';' :: after)).diagnostics.map Diagnostic.cause ++
          List.replicate count .danglingElse) ∧
      (0 < count ↔ Captures before after) := by
  obtain ⟨first, firstRead⟩ := readStatements_within before
  obtain ⟨last, lastRead⟩ := readStatements_within after
  obtain ⟨alone, opens, ok⟩ := readStatements_further before after
  obtain ⟨count, same, captured⟩ := readStatements_causes first.reverse ok
  obtain ⟨readFirst, reported, _⟩ := parse_of_readStatements firstRead
  refine ⟨count, ?_, ?_⟩
  · rw [alone.causes] at same
    rw [(parse_joined after inCode outer firstRead).1, reported,
      (parse_of_readStatements lastRead).2.1]
    simp only [Reading.causes, List.map_append, List.map_map] at same ⊢
    refine List.perm_iff_count.mpr fun cause => ?_
    have counts := same.count_eq cause
    simp only [List.count_append] at counts ⊢
    have moved : Diagnostic.cause ∘ Diagnostic.moved (linesPassed before) = Diagnostic.cause := rfl
    rw [moved]
    omega
  · rw [captured, Captures, readFirst, opens]

/-- Two scripts without a mistake, and the whole of them. -/
theorem joined_quiet (before after : List Char) (inCode : ((start 1).run before).nesting.inCode)
    (outer : ((start 1).run before).outermost = true) (quiet : (parse before).diagnostics = [])
    (quiet' : (parse after).diagnostics = []) :
    (parse (before ++ ';' :: after)).diagnostics = [] ∧
      (parse (before ++ ';' :: after)).statements =
        (parse before).statements ++ bodyMoved (linesPassed before) (parse after).statements := by
  obtain ⟨first, firstRead⟩ := readStatements_within before
  obtain ⟨last, lastRead⟩ := readStatements_within after
  obtain ⟨alone, _, ok⟩ := readStatements_further before after
  obtain ⟨_, reported, statements⟩ := parse_of_readStatements firstRead
  obtain ⟨_, reported', statements'⟩ := parse_of_readStatements lastRead
  obtain ⟨whole, wholeStatements⟩ := parse_joined after inCode outer firstRead
  rw [statements quiet, statements' quiet']
  rw [quiet] at reported
  rw [quiet'] at reported'
  obtain ⟨missing, collected⟩ := List.append_eq_nil_iff.mp reported.symm
  obtain ⟨missing', collected'⟩ := List.append_eq_nil_iff.mp reported'.symm
  have silent := alone.collected
  rw [collected', List.map_nil] at silent
  have behind := readStatements_quiet first.reverse ok silent
  have none : (parse (before ++ ';' :: after)).diagnostics = [] := by
    rw [whole, behind.collected, silent, missing, missing', collected]
    rfl
  refine ⟨none, wholeStatements none _ ?_⟩
  rw [behind.outcome, alone.outcome, lastRead, List.reverse_reverse, bodyMoved_eq_map]
  rfl

/-- **Scripts do not depend on what stands before them, an `else` apart.** Behind a script that ends
outside of brackets, literals and comments, and a semicolon, a second script is parsed. What is wrong
with both is what is wrong with the whole, unless an `else` of the second script joins an `if` of the
first one; then nothing is missing but reports of an `else` without an `if`. If nothing is wrong, the
whole has the statements of both scripts, one behind the other. -/
theorem joined_independent_iff (before after : List Char)
    (inCode : ((start 1).run before).nesting.inCode)
    (outer : ((start 1).run before).outermost = true) :
    let causes (source : List Char) := (parse source).diagnostics.map Diagnostic.cause
    ((causes (before ++ ';' :: after)).Perm (causes before ++ causes after) ↔
      ¬ Captures before after) ∧
    (∃ count, (causes before ++ causes after).Perm
      (causes (before ++ ';' :: after) ++ List.replicate count .danglingElse)) ∧
    ((parse before).diagnostics = [] → (parse after).diagnostics = [] →
      (parse (before ++ ';' :: after)).diagnostics = [] ∧
      (parse (before ++ ';' :: after)).statements =
        (parse before).statements ++ bodyMoved (linesPassed before) (parse after).statements) := by
  intro causes
  obtain ⟨count, same, captured⟩ := joined_causes before after inCode outer
  refine ⟨?_, ⟨count, same⟩, joined_quiet before after inCode outer⟩
  rw [← captured, Nat.pos_iff_ne_zero, not_not]
  constructor
  · intro equal
    have lengths := equal.length_eq.trans same.length_eq
    simp only [causes, List.length_append, List.length_replicate] at lengths
    omega
  · rintro rfl
    rw [List.replicate_zero, List.append_nil] at same
    exact same.symm

/-- An `else` behind a statement of its own script that is no `if`, and two scripts without a
mistake. -/
theorem joined_independent_dangling :
    let before := "int x = 1 +;\nif (true) \x7b\x7d".toList
    let after := "1 *; g(); else \x7b\x7d".toList
    let further := "h(() => \x7b\ng();\n\x7d);".toList
    ((start 1).run before).nesting.inCode ∧ ((start 1).run before).outermost = true ∧
    ¬ Captures before after ∧
    ((parse (before ++ ';' :: after)).diagnostics.map Diagnostic.cause).Perm
      [.unexpectedEnd, .unexpectedEnd, .danglingElse] ∧
    ((start 1).run further).nesting.inCode ∧ ((start 1).run further).outermost = true ∧
    (parse further).diagnostics = [] ∧
    (parse (further ++ ';' :: further)).statements =
      (parse further).statements ++ bodyMoved 2 (parse further).statements := by
  intro before after further
  have inCode : ((start 1).run before).nesting.inCode := .inl (by decide +kernel)
  have outer : ((start 1).run before).outermost = true := by decide +kernel
  have apart : ¬ Captures before after := by decide +kernel
  have inCode' : ((start 1).run further).nesting.inCode := .inl (by decide +kernel)
  have outer' : ((start 1).run further).outermost = true := by decide +kernel
  have quiet : (parse further).diagnostics = [] := by decide +kernel
  have both : (parse before).diagnostics.map Diagnostic.cause ++
      (parse after).diagnostics.map Diagnostic.cause =
        [.unexpectedEnd, .unexpectedEnd, .danglingElse] := by decide +kernel
  have lines : linesPassed further = 2 := by decide +kernel
  have union := (joined_independent_iff before after inCode outer).1.mpr apart
  have joined := ((joined_independent_iff further further inCode' outer').2.2 quiet quiet).2
  rw [both] at union
  rw [lines] at joined
  exact ⟨inCode, outer, apart, union, inCode', outer', quiet, joined⟩

/-- **An `else` may join an `if` of an earlier script**, though the first statement behind the
semicolon is no `else`: it cannot be read. -/
theorem else_joins_earlier_script :
    let before := "if (true) \x7b\x7d".toList
    let after := " 1 +; else \x7b\x7d".toList
    ((start 1).run before).nesting.inCode ∧ ((start 1).run before).outermost = true ∧
    (∀ statement ∈ (splitStatements after 1).1.head?,
      leadingWord statement.text ≠ "else".toList) ∧
    ¬ ((parse (before ++ ';' :: after)).diagnostics.map Diagnostic.cause).Perm
      ((parse before).diagnostics.map Diagnostic.cause ++
        (parse after).diagnostics.map Diagnostic.cause) := by
  intro before after
  have lengths : (parse (before ++ ';' :: after)).diagnostics.length = 1 ∧
      ((parse before).diagnostics.map Diagnostic.cause ++
        (parse after).diagnostics.map Diagnostic.cause).length = 2 := by decide +kernel
  refine ⟨.inl (by decide +kernel), by decide +kernel, by decide +kernel, fun same => ?_⟩
  have equal := same.length_eq
  rw [List.length_map, lengths.1, lengths.2] at equal
  exact absurd equal (by decide)

end TypedScript
