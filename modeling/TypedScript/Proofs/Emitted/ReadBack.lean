/-
**Reading back generated expressions.** The text that is generated for an expression is read as the
tree of its code: operations nest from left to right, whatever the precedence of their operators in
generated programs is. An operator in front of an operand belongs to that operand alone.

Generated programs have fewer names than scripts, and a sign cannot stand in front of a number that
has one already; `tokensReadable` says which expressions avoid both.
-/

import TypedScript.Proofs.Emitted.Taking
import TypedScript.Proofs.Generation.Emission
import TypedScript.Proofs.Json.RoundTrip

namespace TypedScript

variable {wanted : Bool}

/-! ### Trees of code -/

section Trees

open Target

def numberTree : List Char → Tree
  | '-' :: magnitude => .unary "-" (.literal magnitude)
  | text => .literal text

namespace Json

mutual

/-- The tree of a JSON value. -/
def tree : Json → Tree
  | .null => .word "null"
  | .bool value => .word (if value then "true" else "false")
  | .int value => numberTree (writeInt value).toList
  | .float value => numberTree (numberStyle.write value)
  | .text value => .literal (writeText value).toList
  | .array items => .array (itemTrees items)
  | .object fields => .object (fieldTrees fields)

def itemTrees : List Json → List Tree
  | [] => []
  | item :: rest => item.tree :: itemTrees rest

def fieldTrees : List (String × Json) → List (List Char × Tree)
  | [] => []
  | (key, value) :: rest => ((writeText key).toList, value.tree) :: fieldTrees rest

end

end Json

namespace Target

mutual

/-- The tree of generated code, without its parentheses. -/
def Expr.tree : Expr → Tree
  | .number value => numberTree (Number.literalStyle.write value)
  | .text value => .literal (Json.writeText value).toList
  | .bool value => .word (if value then "true" else "false")
  | .null => .word "null"
  | .array value => value.tree
  | .object value => value.tree
  | .name name => .word name
  | .member receiver name => .member receiver.tree name
  | .index receiver index => .index receiver.tree index.tree
  | .call callee arguments => .call callee.tree (argumentTrees arguments)
  | .not operand => .unary "!" operand.tree
  | .minus operand => .unary "-" operand.tree
  | .await operand => .unary "await" operand.tree
  | .binary op left right => .binary op.target left.tree right.tree
  | .group inner => inner.tree
  | .toInt inner => .binary "|" inner.tree (.literal ['0'])
  | .toUint inner => .binary ">>>" (.binary "|" inner.tree (.literal ['0'])) (.literal ['0'])
  | .arrow .. => .function

def argumentTrees : List Expr → List Tree
  | [] => []
  | argument :: rest => argument.tree :: argumentTrees rest

end

end Target

end Trees

/-! ### Expressions that are read back -/

namespace Binary64

/-- Whether the number is neither infinite nor undefined. -/
def isFinite : Binary64 → Bool
  | .finite .. => true
  | _ => false

/-- Whether the number has a sign. -/
def isNegative : Binary64 → Bool
  | .finite negative _ _ => negative
  | .infinite negative => negative
  | .undefined => false

end Binary64

namespace Json

/-- Whether a literal is a number with a sign. -/
def isNegative : Json → Bool
  | .int value => value < 0
  | .float value => value.isNegative
  | _ => false

mutual

/-- Whether every number in a literal is finite. -/
def isFinite : Json → Bool
  | .float value => value.isFinite
  | .array items => itemsFinite items
  | .object fields => fieldsFinite fields
  | _ => true

def itemsFinite : List Json → Bool
  | [] => true
  | item :: rest => item.isFinite && itemsFinite rest

def fieldsFinite : List (String × Json) → Bool
  | [] => true
  | (_, value) :: rest => value.isFinite && fieldsFinite rest

end

end Json

def Token.isNegative : Token → Bool
  | .number value => value.isNegative
  | .array literal => literal.value.isNegative
  | _ => false

/-- Whether the first token is a number with a sign. -/
def startsNegative : List Token → Bool
  | [] => false
  | token :: _ => token.isNegative

/-- A name that programs can use. -/
def isVariable (name : String) : Bool :=
  Target.isWord name && Target.isName name && name != "await"

mutual

/-- Whether a token is read back: its numbers are finite, and its names are names of generated
programs. Nothing is said about functions. -/
def Token.isReadable : Token → Bool
  | .number value => value.isFinite
  | .text _ => true
  | .bool _ => true
  | .null => true
  | .access base steps => isVariable base && stepsReadable steps
  | .operator _ => true
  | .group tokens => tokensReadable true tokens
  | .object literal => literal.value.isFinite
  | .array literal => literal.value.isFinite
  | .call base steps arguments =>
    isVariable base && stepsReadable steps && argumentsReadable arguments
  | .lambda .. => false
  | .await operand => operand.isReadable

/-- Whether an expression is read back, given whether an operand is wanted first. A `-` in front of
an operand does not stand in front of a number with a sign. -/
def tokensReadable (wanted : Bool) : List Token → Bool
  | [] => true
  | .operator op :: rest =>
    !(wanted && op == .sub && startsNegative rest) && tokensReadable true rest
  | token :: rest => token.isReadable && tokensReadable false rest

def stepsReadable : List Step → Bool
  | [] => true
  | .property name :: rest => Target.isWord name && stepsReadable rest
  | .index tokens :: rest => tokensReadable true tokens && stepsReadable rest

def argumentsReadable : List (List Token) → Bool
  | [] => true
  | argument :: rest => tokensReadable true argument && argumentsReadable rest

end

/-! ### Literals -/

namespace Target

/-- A text that is read as an operand and does not start with a sign that an operator in front of it
would take in. -/
structure Legible (negative : Bool) (text : List Char) (tree : Tree) : Prop where
  operand : OperandText text tree
  noEquals : EndsNot text
  noMinus : negative = false → EndsMinus text

theorem Legible.of_endsMinus {text : List Char} {tree : Tree} (operand : OperandText text tree)
    (starts : EndsMinus text) (negative : Bool) : Legible negative text tree :=
  ⟨operand, fun c head => (starts c head).2, fun _ => starts⟩

/-- The signs that start a bracket, and the one for negation. -/
theorem endsMinus_opener {mark : String} (opener : mark ∈ ["(", "[", "\x7b", "!"])
    (rest : List Char) : EndsMinus (mark.toList ++ rest) := by
  simp only [List.mem_cons, List.not_mem_nil, or_false] at opener
  rcases opener with rfl | rfl | rfl | rfl <;> exact Text.forall_head_cons (by decide) rest

open Number in
theorem endsMinus_numeral {text : List Char} (numeral : Numeral text) : EndsMinus text := by
  obtain ⟨whole, fraction, exponent, ⟨digits, _⟩, _, _, rfl⟩ := numeral.parts
  obtain ⟨first, rest, rfl⟩ := List.exists_cons_of_ne_nil digits.nonempty
  intro c head
  obtain rfl : first = c := by simpa using head
  have digit := digits.digits first (.head rest)
  constructor <;>
    · rintro rfl
      contradiction

open Number in
theorem legible_signed {magnitude : List Char} (numeral : Numeral magnitude) (negative : Bool) :
    Legible negative (signed negative magnitude) (numberTree (signed negative magnitude)) := by
  have starts := endsMinus_numeral numeral
  cases negative with
  | true =>
    exact ⟨(OperandText.numeral numeral).minus starts, Text.forall_head_cons (by decide) _,
      fun absurd => nomatch absurd⟩
  | false =>
    have same : numberTree magnitude = .literal magnitude := by
      unfold numberTree
      split
      · exact absurd rfl (starts '-' rfl).1
      · rfl
    show Legible false magnitude (numberTree magnitude)
    rw [same]
    exact .of_endsMinus (.numeral numeral) starts false

theorem legible_finite (style : Number.Style) {value : Binary64} (finite : value.isFinite = true) :
    Legible value.isNegative (style.write value) (numberTree (style.write value)) := by
  cases value with
  | finite negative mantissa exponent =>
    exact legible_signed (style.magnitude_numeral mantissa exponent) negative
  | infinite | undefined => contradiction

theorem legible_int (value : Int) :
    Legible (value < 0) (Json.writeInt value).toList (numberTree (Json.writeInt value).toList) := by
  have numeral : Number.Numeral (Nat.toDigits 10 value.natAbs) :=
    ⟨_, [], [], Number.whole_toDigits value.natAbs, .none, .none, by simp⟩
  unfold Json.writeInt
  rw [String.toList_ofList]
  exact legible_signed numeral _

theorem legible_text (value : String) (negative : Bool) :
    Legible negative (Json.writeText value).toList (.literal (Json.writeText value).toList) := by
  refine .of_endsMinus (.text value) ?_ negative
  rw [Json.writeText, String.toList_ofList]
  exact Text.forall_head_cons (by decide) _

theorem legible_constant {word : String} (constant : word ∈ ["true", "false", "null"])
    (negative : Bool) : Legible negative word.toList (.word word) := by
  have each : ∀ word ∈ ["true", "false", "null"], isWord word = true ∧
      isOperandWord word = true ∧ word ≠ "await" ∧
        word.toList.head? ≠ some '-' ∧ word.toList.head? ≠ some '=' := by decide
  obtain ⟨isWord, isOperand, noAwait, noMinus, noEquals⟩ := each word constant
  refine .of_endsMinus (ChainText.word isWord isOperand noAwait).operand ?_ negative
  intro c head
  constructor <;>
    · rintro rfl
      contradiction

end Target

namespace Json

open Target

mutual

theorem legible : ∀ value : Json, value.isFinite = true →
    Legible value.isNegative value.write.toList value.tree
  | .null, _ | .bool true, _ | .bool false, _ => legible_constant (by decide) false
  | .int value, _ => legible_int value
  | .float value, finite => by
    rw [write, String.toList_ofList, tree]
    exact legible_finite numberStyle finite
  | .text value, _ => legible_text value false
  | .array items, finite => by
    have operands := items_legible items (by rwa [isFinite] at finite)
    rw [write, String.toList_append, String.toList_append, toList_writeItems, List.append_assoc]
    exact .of_endsMinus (.array operands) (endsMinus_opener (by decide) _) _
  | .object fields, finite => by
    have areFields := fields_legible fields (by rwa [isFinite] at finite)
    rw [write, String.toList_append, String.toList_append, toList_writeFields, List.append_assoc]
    exact .of_endsMinus (.object areFields) (endsMinus_opener (by decide) _) _

theorem items_legible : ∀ items : List Json, itemsFinite items = true →
    List.Forall₂ OperandText (items.map fun item => item.write.toList) (itemTrees items)
  | [], _ => .nil
  | item :: rest, finite => by
    rw [itemsFinite, Bool.and_eq_true] at finite
    exact .cons (legible item finite.1).operand (items_legible rest finite.2)

theorem fields_legible : ∀ fields : List (String × Json), fieldsFinite fields = true →
    List.Forall₂ FieldText (fields.map fieldChars) (fieldTrees fields)
  | [], _ => .nil
  | (key, value) :: rest, finite => by
    rw [fieldsFinite, Bool.and_eq_true] at finite
    exact .cons (.intro key (legible value finite.1).operand) (fields_legible rest finite.2)

end

end Json

/-! ### Accesses and calls -/

namespace Target

/-- A text behind which accesses and calls may stand, and that starts like a name or a bracket. -/
structure LegibleChain (text : List Char) (tree : Tree) : Prop where
  chain : ChainText text tree
  starts : EndsMinus text

namespace LegibleChain

variable {text inner : List Char} {tree innerTree : Tree}

theorem legible (chain : LegibleChain text tree) (negative : Bool) : Legible negative text tree :=
  .of_endsMinus chain.chain.operand chain.starts negative

theorem name {name : String} (isVariable : isVariable name = true) :
    LegibleChain name.toList (.word name) := by
  simp only [TypedScript.isVariable, Bool.and_eq_true, bne_iff_ne, ne_eq] at isVariable
  obtain ⟨⟨word, isName⟩, noAwait⟩ := isVariable
  have isOperand : isOperandWord name = true := by
    simp [isOperandWord, isName, noAwait]
  refine ⟨.word word isOperand noAwait, ?_⟩
  intro c head
  have start : isNameStart c = true := by
    unfold isWord at word
    rcases same : name.toList with _ | ⟨first, more⟩
    · rw [same] at head
      contradiction
    · rw [same] at word head
      obtain rfl := Option.some.inj head
      exact (Bool.and_eq_true_iff.mp word).1
  constructor <;>
    · rintro rfl
      contradiction

theorem member (chain : LegibleChain text tree) {name : String} (word : isWord name = true) :
    LegibleChain (text ++ (".".toList ++ name.toList)) (.member tree name) := by
  exact ⟨chain.chain.member word,
    Text.forall_head_append chain.starts (Text.forall_head_cons (by decide) _)⟩

theorem index (chain : LegibleChain text tree) (operand : OperandText inner innerTree) :
    LegibleChain (text ++ ("[".toList ++ (inner ++ "]".toList))) (.index tree innerTree) :=
  ⟨chain.chain.index operand, Text.forall_head_append chain.starts (endsMinus_opener (by decide) _)⟩

theorem call (chain : LegibleChain text tree) {texts : List (List Char)} {trees : List Tree}
    (operands : List.Forall₂ OperandText texts trees) :
    LegibleChain (text ++ ("(".toList ++ ([',', ' '].intercalate texts ++ ")".toList)))
      (.call tree trees) :=
  ⟨chain.chain.call operands, Text.forall_head_append chain.starts (endsMinus_opener (by decide) _)⟩

end LegibleChain

theorem toList_writeArguments (indent : Nat) (arguments : List Expr) :
    (writeArguments indent arguments).toList =
      [',', ' '].intercalate (arguments.map fun argument => (argument.write indent).toList) := by
  induction arguments with
  | nil => rfl
  | cons argument rest ih =>
    cases rest with
    | nil => simp [writeArguments]
    | cons next rest =>
      rw [writeArguments, String.toList_append, String.toList_append, ih]
      · exact List.intercalate_cons_cons.symm
      · simp

end Target

/-! ### Expressions -/

theorem tokensReadable_value {token : Token} {rest : List Token}
    (value : ∀ op, token ≠ .operator op) :
    tokensReadable wanted (token :: rest) = (token.isReadable && tokensReadable false rest) := by
  rw [tokensReadable]
  exact value

theorem startsNegative_append (left right : List Token) (op : Operator) :
    startsNegative (left ++ .operator op :: right) = startsNegative left := by
  cases left <;> rfl

theorem tokensReadable_sides {left right : List Token} {op : Operator}
    (readable : tokensReadable wanted (left ++ .operator op :: right) = true) :
    tokensReadable wanted left = true ∧ tokensReadable true right = true := by
  induction left generalizing wanted with
  | nil =>
    rw [List.nil_append, tokensReadable, Bool.and_eq_true] at readable
    exact ⟨by rw [tokensReadable], readable.2⟩
  | cons token rest ih =>
    cases token with
    | operator first =>
      rw [List.cons_append, tokensReadable, startsNegative_append, Bool.and_eq_true] at readable
      obtain ⟨front, back⟩ := ih readable.2
      rw [tokensReadable, Bool.and_eq_true]
      exact ⟨⟨readable.1, front⟩, back⟩
    | _ =>
      rw [List.cons_append, tokensReadable_value (by simp), Bool.and_eq_true] at readable
      obtain ⟨front, back⟩ := ih readable.2
      rw [tokensReadable_value (by simp), Bool.and_eq_true]
      exact ⟨⟨readable.1, front⟩, back⟩

theorem stepsReadable_of_append {first second : List Step}
    (readable : stepsReadable (first ++ second) = true) : stepsReadable first = true := by
  induction first with
  | nil => rw [stepsReadable]
  | cons step rest ih =>
    cases step <;>
      · rw [List.cons_append, stepsReadable, Bool.and_eq_true] at readable
        rw [stepsReadable, Bool.and_eq_true]
        exact ⟨readable.1, ih readable.2⟩

section Codes

open Target

/-- Code in parentheses starts with one. -/
theorem legible_bracketed {text : List Char} {tree : Tree}
    (chain : ChainText ("(".toList ++ text) tree) (negative : Bool) :
    Legible negative ("(".toList ++ text) tree :=
  .of_endsMinus chain.operand (endsMinus_opener (by decide) text) negative

-- The recursion is on the derivations: those of a token, of its operands, steps and arguments.
mutual

theorem TokenCode.legible (indent : Nat) {token : Token} {code : Target.Expr} :
    TokenCode token code → token.isReadable = true →
      Legible token.isNegative (code.write indent).toList code.tree
  | .number value, readable => by
    rw [Expr.write, String.toList_ofList, Expr.tree]
    exact legible_finite Number.literalStyle readable
  | .text value, _ => legible_text value false
  | .bool true, _ => @legible_constant "true" (by decide) false
  | .bool false, _ => @legible_constant "false" (by decide) false
  | .null, _ => @legible_constant "null" (by decide) false
  | .object literal, readable => by
    rw [Expr.write, String.toList_append, String.toList_append, List.append_assoc, Expr.tree]
    exact legible_bracketed (literal.value.legible readable).operand.group false
  | .array literal, readable => by
    rw [Expr.write, Expr.tree]
    exact literal.value.legible readable
  | .group inner, readable => by
    rw [Expr.write, String.toList_append, String.toList_append, List.append_assoc, Expr.tree]
    exact legible_bracketed (inner.legible indent readable).operand.group false
  | .access taken, readable => by
    rw [Token.isReadable, Bool.and_eq_true] at readable
    exact (taken.legible indent readable.2 (.name readable.1)).legible false
  | .call called, readable => by
    rw [Token.isReadable, Bool.and_eq_true, Bool.and_eq_true] at readable
    obtain ⟨⟨base, steps⟩, arguments⟩ := readable
    exact (called.legible indent base steps arguments).legible false
  | .lambda _, readable => by
    contradiction
  | .await awaited, readable => by
    have operand := (awaited.legible indent readable).operand.await
    rw [Expr.write, String.toList_append, String.toList_append, List.append_assoc, Expr.tree]
    exact legible_bracketed operand.group false

theorem OperandCode.legible (indent : Nat) {tokens : List Token} {code : Target.Expr} :
    OperandCode tokens code → tokensReadable true tokens = true →
      Legible (startsNegative tokens) (code.write indent).toList code.tree
  | @OperandCode.value token code single, readable => by
    have noOperator : ∀ op, token ≠ .operator op := by
      rintro op rfl
      cases single
    rw [tokensReadable_value noOperator, Bool.and_eq_true] at readable
    exact single.legible indent readable.1
  | @OperandCode.unary tokens code op isUnary operand, readable => by
    rw [tokensReadable, Bool.and_eq_true] at readable
    have inner := operand.legible indent readable.2
    cases op with
    | not =>
      rw [unaryCode, Expr.write, String.toList_append, Expr.tree]
      exact .of_endsMinus (inner.operand.not inner.noEquals) (endsMinus_opener (by decide) _) _
    | sub =>
      have noMinus := inner.noMinus (by simpa using readable.1)
      have chain := (inner.operand.minus noMinus).group
      rw [unaryCode, Expr.write, String.toList_append, String.toList_append, Expr.tree]
      · rw [List.append_assoc] at chain ⊢
        exact legible_bracketed chain _
      · simp
    | _ => contradiction

/-- The text of generated code is read as its tree. -/
theorem TokensCode.legible (indent : Nat) {tokens : List Token} {code : Target.Expr} :
    TokensCode tokens code → tokensReadable true tokens = true →
      Legible (startsNegative tokens) (code.write indent).toList code.tree
  | .operand operand, readable => operand.legible indent readable
  | .binary front joins operand, readable => by
    obtain ⟨left, right⟩ := tokensReadable_sides readable
    have chain := (front.legible indent left).operand.binary
      (operand.legible indent right).operand joins
    rw [Expr.write, Expr.tree]
    simp only [String.toList_append, List.append_assoc] at chain ⊢
    exact legible_bracketed chain _

theorem StepsCode.legible (indent : Nat) {receiver code : Target.Expr} {steps : List Step} :
    StepsCode receiver steps code → stepsReadable steps = true →
      LegibleChain (receiver.write indent).toList receiver.tree →
        LegibleChain (code.write indent).toList code.tree
  | .nil _, _, chain => chain
  | .property taken, readable, chain => by
    rw [stepsReadable, Bool.and_eq_true] at readable
    refine taken.legible indent readable.2 ?_
    rw [Expr.write, String.toList_append, String.toList_append, List.append_assoc, Expr.tree]
    exact chain.member readable.1
  | .index inner taken, readable, chain => by
    rw [stepsReadable, Bool.and_eq_true] at readable
    refine taken.legible indent readable.2 ?_
    rw [Expr.write, Expr.tree]
    simp only [String.toList_append, List.append_assoc]
    exact chain.index (inner.legible indent readable.1).operand

theorem CallCode.legible (indent : Nat) {base : String} {steps : List Step}
    {arguments : List (List Token)} {code : Target.Expr} :
    CallCode base steps arguments code → isVariable base = true → stepsReadable steps = true →
      argumentsReadable arguments = true → LegibleChain (code.write indent).toList code.tree
  | .callee taken values, base, steps, arguments => by
    have chain := taken.legible indent steps (.name base)
    have whole := chain.call (values.legible indent arguments)
    rw [Expr.write, Expr.tree]
    simpa only [String.toList_append, toList_writeArguments, List.append_assoc] using whole
  | @CallCode.helper _ _ _ _ _ _ helper taken _ values, base, steps, arguments => by
    have receiver := taken.legible indent (stepsReadable_of_append steps) (.name base)
    have name : isVariable helper.name = true := by cases helper <;> decide
    have operands := List.Forall₂.cons receiver.chain.operand
      (values.legible indent arguments)
    have whole := (LegibleChain.name name).call operands
    rw [Expr.write, Expr.write, Expr.tree, Expr.tree, argumentTrees]
    simpa only [String.toList_append, toList_writeArguments, List.append_assoc, List.map_cons]
      using whole

theorem ArgumentsCode.legible (indent : Nat) {arguments : List (List Token)}
    {codes : List Target.Expr} :
    ArgumentsCode arguments codes → argumentsReadable arguments = true →
      List.Forall₂ OperandText (codes.map fun code => (code.write indent).toList)
        (argumentTrees codes)
  | .nil, _ => .nil
  | .cons first rest, readable => by
    rw [argumentsReadable, Bool.and_eq_true] at readable
    exact .cons (first.legible indent readable.1).operand
      (rest.legible indent readable.2)

end

end Codes

/-- **Generated expressions are read from left to right.** An expression without functions that is
accepted has code in which its operations nest from left to right, an operator in front of an operand
belongs to that operand alone, and groups, indices and arguments are expressions of their own; the
text of the code is read, by the precedence of generated programs, as the tree of exactly that
code. -/
theorem left_to_right {tokens : List Token} (readable : tokensReadable true tokens = true)
    (line : Nat) (before : Context)
    (accepted : (generateTokens tokens line before).2.diagnostics = before.diagnostics) :
    ∃ value, (generateTokens tokens line before).1 = some value ∧ TokensCode tokens value.code ∧
      ∀ indent, Target.readExpression (value.code.write indent).toList = some value.code.tree := by
  have delivers : Gen.Delivers True (generateTokens tokens line)
      (fun value => TokensCode tokens value.code) :=
    generateTokens_code line tokens
  obtain ⟨value, result, code⟩ := delivers.result_of_quiet before accepted
  exact ⟨value, result, code, fun indent => (code.legible indent readable).operand.read⟩

/-- The start of a script in which variables are declared. -/
def contextOf (declared : List (String × Ty)) : Context :=
  declared.foldl (fun context item => context.declare ⟨item.1, .value item.2, false⟩)
    (.start fun path => .error (.variableNotDeclared path))

theorem left_to_right_mixed :
    let tokens := [Token.access "a" [], .operator .sub, .operator .sub, .access "b" [],
      .operator .mul, .access "xs" [.index [.number (.zero false), .operator .add, .access "a" []]],
      .operator .equals, .number (.finite true 3 0)]
    let before := contextOf [("a", .number), ("b", .number), ("xs", .named "array" [.number])]
    tokensReadable true tokens = true ∧
    (generateTokens tokens 1 before).2.diagnostics = before.diagnostics ∧
    ∃ value, (generateTokens tokens 1 before).1 = some value ∧ TokensCode tokens value.code ∧
      ∀ indent, Target.readExpression (value.code.write indent).toList = some value.code.tree := by
  intro tokens before
  have readable : tokensReadable true tokens = true := by decide
  have accepted : (generateTokens tokens 1 before).2.diagnostics = before.diagnostics := rfl
  exact ⟨readable, accepted, left_to_right readable 1 before accepted⟩

/-- Scripts have members whose names start with a digit, and variables whose names are words of
generated programs. Both are accepted, and neither is read. -/
theorem foreign_names_unread :
    let member := [Token.access "x" [.property "1"]]
    let keyword := [Token.access "new" []]
    let before := contextOf [("x", .any), ("new", .any)]
    ∀ tokens ∈ [member, keyword],
      (generateTokens tokens 1 before).2.diagnostics = before.diagnostics ∧
      ∃ value, (generateTokens tokens 1 before).1 = some value ∧
        Target.readExpression (value.code.write 0).toList = none := by
  intro member keyword before tokens isOne
  simp only [List.mem_cons, List.not_mem_nil, or_false] at isOne
  rcases isOne with rfl | rfl
  · exact ⟨rfl, ⟨.any, .member (.name "x") "1"⟩, rfl, rfl⟩
  · exact ⟨rfl, ⟨.any, .name "new"⟩, rfl, rfl⟩

end TypedScript
