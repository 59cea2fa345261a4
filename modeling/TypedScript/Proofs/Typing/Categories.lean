/-
**Types and values of literal expressions.** An expression of literals and operators that is
accepted evaluates to a value of the category its type says, with one exception: `&&` and `||` are
of type `boolean` whatever their operands are, but give one of their operands as it is.
-/

import TypedScript.Proofs.Emitted.ReadBack
import TypedScript.Proofs.Typing.Evaluation
import TypedScript.Proofs.Typing.Rules

namespace TypedScript

open Target (Runtime Primitive)

variable {type : Ty} {op : Operator} {code : Target.Expr} {prefixes : List Operator}
  {before : Operand}

/-! ### Literal expressions -/

mutual

/-- Whether a token is a literal other than a list or an object, an operator, or a group of such. -/
def tokenLiteral : Token → Bool
  | .number _ => true
  | .text _ => true
  | .bool _ => true
  | .operator _ => true
  | .group tokens => tokensLiteral tokens
  | _ => false

/-- **Whether an expression has only literals, operators and groups.** -/
def tokensLiteral : List Token → Bool
  | [] => true
  | token :: rest => tokenLiteral token && tokensLiteral rest

end

/-- The types that literal expressions have. -/
def basicTypes : List Ty :=
  [.number, .string, .boolean]

/-- The type of generated code that has only literals and operators. -/
inductive HasType : Target.Expr → Ty → Prop
  | number (value : Binary64) : HasType (.number value) .number
  | text (value : String) : HasType (.text value) .string
  | bool (value : Bool) : HasType (.bool value) .boolean
  | group {inner : Target.Expr} {type : Ty} (typed : HasType inner type) :
      HasType (.group inner) type
  | unary {op : Operator} {operand : Target.Expr} {type result : Ty} (typed : HasType operand type)
      (isUnary : op.isUnary = true) (applies : type.applyUnary op = .ok result) :
      HasType (unaryCode op operand) result
  | binary {op : Operator} {left right : Target.Expr} {leftType rightType result : Ty}
      (typed : HasType left leftType) (typed' : HasType right rightType)
      (joins : op.joinsOperands = true)
      (applies : Ty.applyBinary op leftType rightType = .ok result) :
      HasType (.binary op left right) result

/-! ### What operators give -/

theorem category_ne_any (basic : type ∈ basicTypes) : type.category ≠ "any" := by
  revert type
  decide

theorem applyUnary_basic {result : Ty} (basic : type ∈ basicTypes) (isUnary : op.isUnary = true)
    (applies : type.applyUnary op = .ok result) :
    op = .not ∧ result = .boolean ∨ op = .sub ∧ result = .number := by
  rcases Ty.applyUnary_eq_ok applies with ⟨unknown, _⟩ | ⟨category, found, rfl⟩
  · exact absurd unknown (category_ne_any basic)
  · -- Both operators give one category for all operands they take.
    cases op with
    | not =>
      have uniform : Operator.uniformResult? Operator.not.unaryTable = some "boolean" := by decide
      rw [← Operator.eq_uniformResult found uniform]
      exact .inl ⟨rfl, rfl⟩
    | sub =>
      have uniform : Operator.uniformResult? Operator.sub.unaryTable = some "number" := by decide
      rw [← Operator.eq_uniformResult found uniform]
      exact .inr ⟨rfl, rfl⟩
    | _ => exact absurd isUnary (by decide)

theorem applyBinary_uniform {left right result : Ty} {uniform : String}
    (basic : left ∈ basicTypes) (basic' : right ∈ basicTypes)
    (same : Operator.uniformResult? op.binaryTable = some uniform)
    (applies : Ty.applyBinary op left right = .ok result) : result = .simple uniform := by
  obtain ⟨_, _, gives⟩ := Ty.applyBinary_eq_ok applies
  rcases gives with ⟨unknown, _⟩ | ⟨adds, _⟩ | ⟨category, found, rfl⟩
  · exact absurd unknown (not_or.mpr ⟨category_ne_any basic, category_ne_any basic'⟩)
  · have none : Operator.uniformResult? op.binaryTable = none := by
      rcases adds with rfl | rfl <;> decide
    exact absurd (same.symm.trans none) (Option.some_ne_none _)
  · rw [Operator.eq_uniformResult found same]

/-- What `+` takes and gives. -/
theorem applyBinary_add {left right result : Ty} (basic : left ∈ basicTypes)
    (basic' : right ∈ basicTypes) (applies : Ty.applyBinary .add left right = .ok result) :
    left ≠ .boolean ∧ right ≠ .boolean ∧
      (result = .string ∧ (left = .string ∨ right = .string) ∨
        result = .number ∧ left = .number ∧ right = .number) := by
  have boolean : Ty.takesOperand .add Ty.boolean.category = false := by decide
  obtain ⟨takes, takes', _⟩ := Ty.applyBinary_eq_ok applies
  have known : left ≠ .boolean := by
    rintro rfl
    exact absurd takes (by rw [boolean]; decide)
  have known' : right ≠ .boolean := by
    rintro rfl
    exact absurd takes' (by rw [boolean]; decide)
  refine ⟨known, known', ?_⟩
  simp only [basicTypes, List.mem_cons, List.not_mem_nil, or_false, known, known'] at basic basic'
  rcases basic with rfl | rfl <;> rcases basic' with rfl | rfl
  · exact .inr ⟨(Except.ok.inj applies).symm, rfl, rfl⟩
  · exact .inl ⟨(Except.ok.inj applies).symm, .inr rfl⟩
  · exact .inl ⟨(Except.ok.inj applies).symm, .inl rfl⟩
  · exact .inl ⟨(Except.ok.inj applies).symm, .inl rfl⟩

theorem HasType.basic (typed : HasType code type) : type ∈ basicTypes := by
  induction typed with
  | number | text | bool => decide
  | group _ ih => exact ih
  | unary _ isUnary applies ih =>
    rcases applyUnary_basic ih isUnary applies with ⟨_, rfl⟩ | ⟨_, rfl⟩ <;> decide
  | @binary op left right _ _ result _ _ joins applies ih ih' =>
    cases op with
    | add =>
      obtain ⟨_, _, ⟨rfl, _⟩ | ⟨rfl, _⟩⟩ := applyBinary_add ih ih' applies <;> decide
    | sub | mul | div | mod =>
      rw [applyBinary_uniform ih ih' (show _ = some "number" by decide) applies]
      decide
    | equals | notEquals | less | greater | lessEquals | greaterEquals | and | or =>
      rw [applyBinary_uniform ih ih' (show _ = some "boolean" by decide) applies]
      decide
    | _ => exact absurd joins (by decide)

/-! ### Values -/

section Values

variable {N : Type} (runtime : Runtime N)

/-- **The part of an expression whose value it has.** An operation with `&&` or `||` hands on the
value of one side, whatever that is; every other operation makes a value of its own. -/
def selected : Target.Expr → Target.Expr
  | .group inner => selected inner
  | .binary .and left right =>
    if (left.tree.eval? runtime).any fun value => value.isTrue runtime then selected right
    else selected left
  | .binary .or left right =>
    if (left.tree.eval? runtime).any fun value => value.isTrue runtime then selected left
    else selected right
  | code => code

/-- The value of code, and the part that it is the value of. -/
structure Evaluates (code : Target.Expr) (type : Ty) (result : Primitive N) : Prop where
  value : code.tree.eval? runtime = some result
  selects : (selected runtime code).tree.eval? runtime = some result
  part : ∃ part, HasType (selected runtime code) part ∧ result.category = part.category ∧
    (part = type ∨ type = .boolean)

variable {runtime}

theorem Evaluates.of_selected {result : Primitive N} (typed : HasType code type)
    (own : selected runtime code = code) (value : code.tree.eval? runtime = some result)
    (category : result.category = type.category) : Evaluates runtime code type result where
  value := value
  selects := own.symm ▸ value
  part := ⟨type, own.symm ▸ typed, category, .inl rfl⟩

theorem Evaluates.category_eq {result : Primitive N}
    (evaluates : Evaluates runtime code type result) (known : type ≠ .boolean) :
    result.category = type.category := by
  obtain ⟨part, _, category, same | other⟩ := evaluates.part
  · rw [category, same]
  · exact absurd other known

open Number in
theorem head_write (value : Binary64) : (literalStyle.write value).head? ≠ some '"' := by
  cases value with
  | finite negative mantissa exponent =>
    cases negative with
    | true => exact fun quote => absurd (Option.some.inj quote) (by decide)
    | false =>
      obtain ⟨whole, _, _, ⟨digits, _⟩, _, _, same⟩ :=
        (literalStyle.magnitude_numeral mantissa exponent).parts
      obtain ⟨first, rest, rfl⟩ := List.exists_cons_of_ne_nil digits.nonempty
      have digit := digits.digits first (.head rest)
      rw [show literalStyle.write (.finite false mantissa exponent) = _ from same]
      intro quote
      obtain rfl := Option.some.inj quote
      exact absurd digit (by decide)
  | infinite negative => cases negative <;> decide
  | undefined => decide

theorem numberTree_eval (runtime : Runtime N) {text : List Char}
    (unquoted : text.head? ≠ some '"') :
    ∃ result, (numberTree text).eval? runtime = some (.number result) := by
  unfold numberTree
  split
  · exact ⟨_, rfl⟩
  · refine ⟨runtime.ofLiteral text, ?_⟩
    show some (Target.literalValue runtime text) = _
    unfold Target.literalValue
    split
    · exact absurd rfl unquoted
    · rfl

theorem text_eval (runtime : Runtime N) (value : String) :
    ∃ result, (Target.Expr.text value).tree.eval? runtime = some (.text result) := by
  show ∃ result, some (Target.literalValue runtime (Json.writeText value).toList) = _
  rw [Json.writeText, String.toList_ofList]
  exact ⟨_, rfl⟩

theorem add_category (left right : Primitive N) :
    (Primitive.add runtime left right).category =
      if left.category = "string" ∨ right.category = "string" then "string" else "number" := by
  cases left <;> cases right <;> rfl

section Operations

variable {left right : Target.Expr} {first second : Primitive N} {result : Primitive N}

theorem not_eval (value : left.tree.eval? runtime = some first) :
    (Target.Expr.not left).tree.eval? runtime = some (.bool !first.isTrue runtime) := by
  rw [Target.Expr.tree, Target.Tree.eval?, value]
  rfl

theorem minus_eval (value : left.tree.eval? runtime = some first) :
    (Target.Expr.minus left).tree.eval? runtime =
      some (.number (runtime.negate (first.toNumber runtime))) := by
  rw [Target.Expr.tree, Target.Tree.eval?, value]
  rfl

theorem and_eval (value : left.tree.eval? runtime = some first) :
    (Target.Expr.binary .and left right).tree.eval? runtime =
      if first.isTrue runtime then right.tree.eval? runtime else some first := by
  rw [Target.Expr.tree, Target.Tree.eval?, value]
  rfl

theorem or_eval (value : left.tree.eval? runtime = some first) :
    (Target.Expr.binary .or left right).tree.eval? runtime =
      if first.isTrue runtime then some first else right.tree.eval? runtime := by
  rw [Target.Expr.tree, Target.Tree.eval?, value]
  rfl

/-- An operator that evaluates both sides. -/
theorem binary_eval (value : left.tree.eval? runtime = some first)
    (value' : right.tree.eval? runtime = some second) (noAnd : op ≠ .and) (noOr : op ≠ .or) :
    (Target.Expr.binary op left right).tree.eval? runtime =
      Primitive.binary? runtime op.target first second := by
  have spelled : op.target ≠ "&&" ∧ op.target ≠ "||" := by
    cases op <;> first | contradiction | decide
  rw [Target.Expr.tree, Target.Tree.eval?, value, value']
  exact (if_neg spelled.1).trans (if_neg spelled.2)

/-- An operation that evaluates both sides makes a value of its own. -/
theorem Evaluates.of_binary {leftType rightType : Ty}
    (typed : HasType (.binary op left right) type)
    (evaluates : Evaluates runtime left leftType first)
    (evaluates' : Evaluates runtime right rightType second) (noAnd : op ≠ .and) (noOr : op ≠ .or)
    (value : Primitive.binary? runtime op.target first second = some result)
    (category : result.category = type.category) :
    Evaluates runtime (.binary op left right) type result := by
  have own : selected runtime (.binary op left right) = .binary op left right := by
    cases op <;> first | contradiction | rfl
  exact .of_selected typed own
    ((binary_eval evaluates.value evaluates'.value noAnd noOr).trans value) category

theorem Evaluates.of_side {side : Target.Expr} (evaluates : Evaluates runtime side type result)
    (value : code.tree.eval? runtime = side.tree.eval? runtime)
    (selects : selected runtime code = selected runtime side) :
    Evaluates runtime code .boolean result := by
  obtain ⟨part, typed, category, _⟩ := evaluates.part
  refine ⟨value.trans evaluates.value, ?_, part, ?_, category, .inr rfl⟩
  · rw [selects]
    exact evaluates.selects
  · rw [selects]
    exact typed

end Operations

/-- Code evaluates to a value of the type of its selected part. -/
theorem HasType.evaluates (typed : HasType code type) (runtime : Runtime N) :
    ∃ result, Evaluates runtime code type result := by
  induction typed with
  | number value =>
    obtain ⟨result, evaluated⟩ := numberTree_eval runtime (head_write value)
    exact ⟨_, .of_selected (.number value) rfl evaluated rfl⟩
  | text value =>
    obtain ⟨result, evaluated⟩ := text_eval runtime value
    exact ⟨_, .of_selected (.text value) rfl evaluated rfl⟩
  | bool value =>
    refine ⟨.bool value, .of_selected (.bool value) rfl ?_ rfl⟩
    cases value <;> rfl
  | group typed ih =>
    obtain ⟨result, ⟨value, selects, part⟩⟩ := ih
    exact ⟨result, ⟨value, selects, part⟩⟩
  | unary typed isUnary applies ih =>
    have whole := HasType.unary typed isUnary applies
    obtain ⟨operand, evaluates⟩ := ih
    rcases applyUnary_basic typed.basic isUnary applies with ⟨rfl, rfl⟩ | ⟨rfl, rfl⟩
    · exact ⟨_, .of_selected whole rfl (not_eval evaluates.value) rfl⟩
    · exact ⟨_, .of_selected whole rfl (minus_eval evaluates.value) rfl⟩
  | @binary op left right leftType rightType result typed typed' joins applies ih ih' =>
    have whole := HasType.binary typed typed' joins applies
    obtain ⟨first, evaluates⟩ := ih
    obtain ⟨second, evaluates'⟩ := ih'
    have test := evaluates.value
    cases op with
    | and =>
      rw [applyBinary_uniform typed.basic typed'.basic (show _ = some "boolean" by decide)
        applies]
      cases truth : first.isTrue runtime with
      | true => exact ⟨second, evaluates'.of_side (by simp [and_eval test, truth])
          (by simp [selected, test, truth])⟩
      | false => exact ⟨first, evaluates.of_side (by simp [and_eval test, truth, test])
          (by simp [selected, test, truth])⟩
    | or =>
      rw [applyBinary_uniform typed.basic typed'.basic (show _ = some "boolean" by decide)
        applies]
      cases truth : first.isTrue runtime with
      | true => exact ⟨first, evaluates.of_side (by simp [or_eval test, truth, test])
          (by simp [selected, test, truth])⟩
      | false => exact ⟨second, evaluates'.of_side (by simp [or_eval test, truth])
          (by simp [selected, test, truth])⟩
    | add =>
      -- Neither operand is of type `boolean`, so both have the categories of their types.
      obtain ⟨known, known', gives⟩ := applyBinary_add typed.basic typed'.basic applies
      refine ⟨_, .of_binary whole evaluates evaluates' (by decide) (by decide) rfl ?_⟩
      rw [add_category, evaluates.category_eq known, evaluates'.category_eq known']
      rcases gives with ⟨rfl, rfl | rfl⟩ | ⟨rfl, rfl, rfl⟩
      · rfl
      · exact if_pos (.inr rfl)
      · rfl
    | sub | mul | div | mod =>
      refine ⟨_, .of_binary whole evaluates evaluates' (by decide) (by decide) rfl ?_⟩
      rw [applyBinary_uniform typed.basic typed'.basic (show _ = some "number" by decide)
        applies]
      rfl
    | equals | notEquals | less | greater | lessEquals | greaterEquals =>
      refine ⟨_, .of_binary whole evaluates evaluates' (by decide) (by decide) rfl ?_⟩
      rw [applyBinary_uniform typed.basic typed'.basic (show _ = some "boolean" by decide)
        applies]
      rfl
    | _ => exact absurd joins (by decide)

end Values

/-! ### Generated code -/

/-- Everything so far is code of its type. -/
inductive Operand.HasTypes : Operand → Prop
  | wanted {prefixes : List Operator} (unary : ∀ op ∈ prefixes, op.isUnary = true) :
      HasTypes (.wanted none prefixes)
  | right {left : Value} {op : Operator} {prefixes : List Operator}
      (typed : HasType left.code left.type) (joins : op.joinsOperands = true)
      (unary : ∀ op ∈ prefixes, op.isUnary = true) :
      HasTypes (.wanted (some (left, op)) prefixes)
  | complete {value : Value} (typed : HasType value.code value.type) : HasTypes (.complete value)

theorem Operand.HasTypes.unary {left : Option (Value × Operator)}
    (typed : (Operand.wanted left prefixes).HasTypes) : ∀ op ∈ prefixes, op.isUnary = true := by
  cases typed with
  | wanted unary | right _ _ unary => exact unary

section Generated

variable {line : Nat}

theorem applyPrefixes_typed {value : Value} :
    Gen.Delivers (HasType value.code value.type ∧ ∀ op ∈ prefixes, op.isUnary = true)
      (applyPrefixes line prefixes value) fun value => HasType value.code value.type := by
  induction prefixes generalizing value with
  | nil => exact .pure And.left
  | cons op rest ih =>
    refine .bind .ofExcept fun type => ih.weaken (fun given => ?_) fun _ _ typed => typed
    obtain ⟨⟨typed, unary⟩, applies⟩ := given
    exact ⟨.unary typed (unary op List.mem_cons_self) applies,
      fun op among => unary op (List.mem_cons_of_mem _ among)⟩

theorem applyLeft_typed {assumed : Prop} {pair : Value × Operator} {operand : Value} :
    Gen.Delivers (((Operand.wanted (some pair) prefixes).HasTypes ∧ assumed) ∧
        HasType operand.code operand.type)
      (applyLeft line (some pair) operand) fun value => HasType value.code value.type := by
  refine .bind .ofExcept fun type => .pure fun given => ?_
  obtain ⟨⟨⟨before, _⟩, typed⟩, applies⟩ := given
  cases before with
  | right left joins _ => exact .binary left typed joins applies

theorem afterOperator_typed (op : Operator) :
    Gen.Delivers before.HasTypes (before.afterOperator line op) Operand.HasTypes := by
  cases before with
  | wanted left prefixes =>
    refine .ite (fun isUnary => .pure fun typed => ?_) fun _ => .fail
    have more (unary : ∀ op ∈ prefixes, op.isUnary = true) :
        ∀ op' ∈ op :: prefixes, op'.isUnary = true :=
      List.forall_mem_cons.mpr ⟨isUnary, unary⟩
    cases typed with
    | wanted unary => exact .wanted (more unary)
    | right typed joins unary => exact .right typed joins (more unary)
  | complete value =>
    refine .ite (fun joins => .pure fun typed => ?_) fun _ => .fail
    cases typed with
    | complete typed => exact .right typed joins fun _ none => absurd none List.not_mem_nil

theorem afterValue_typed {step : Gen Value}
    (typed : Gen.Delivers True step fun value => HasType value.code value.type) :
    Gen.Delivers before.HasTypes (before.afterValue line step) Operand.HasTypes := by
  cases before with
  | complete value => exact .fail
  | wanted left prefixes =>
    refine .bind typed.given fun value => .bind (applyPrefixes_typed.weaken
      (fun given => ⟨given.2, given.1.unary⟩) fun _ _ typed => typed) fun operand => ?_
    cases left with
    | none => exact .pure fun given => .complete given.2
    | some pair =>
      exact .bind applyLeft_typed fun _ => .pure fun given => .complete given.2

theorem atEnd_typed :
    Gen.Delivers before.HasTypes (before.atEnd line)
      fun value => HasType value.code value.type := by
  cases before with
  | wanted left prefixes => exact .fail
  | complete value =>
    refine .pure fun typed => ?_
    cases typed with
    | complete typed => exact typed

end Generated

theorem Operand.hasTypes_start : (Operand.wanted none []).HasTypes :=
  .wanted fun _ none => absurd none List.not_mem_nil

mutual

theorem generateValue_typed (line : Nat) (token : Token) (literal : tokenLiteral token = true) :
    Gen.Delivers True (generateValue line token) fun value => HasType value.code value.type := by
  cases token with
  | number value =>
    rw [generateValue]
    exact .pure fun _ => .number value
  | text value =>
    rw [generateValue]
    exact .pure fun _ => .text value
  | bool value =>
    rw [generateValue]
    exact .pure fun _ => .bool value
  | operator op =>
    rw [generateValue]
    exact .fail
  | group tokens =>
    rw [generateValue]
    have inner := generateExpression_typed line (.wanted none []) tokens literal
    exact .bind (inner.weaken (fun _ => Operand.hasTypes_start) fun _ _ typed => typed)
      fun value => .pure fun given => .group given.2
  | _ => exact absurd literal Bool.false_ne_true

/-- **The code of a literal expression is code of its type.** -/
theorem generateExpression_typed (line : Nat) (before : Operand) (tokens : List Token)
    (literal : tokensLiteral tokens = true) :
    Gen.Delivers before.HasTypes (generateExpression line before tokens)
      fun value => HasType value.code value.type := by
  cases tokens with
  | nil =>
    rw [generateExpression]
    exact atEnd_typed
  | cons token rest =>
    rw [tokensLiteral, Bool.and_eq_true] at literal
    have operand := generateValue_typed line token literal.1
    cases isValue : token.isValue with
    | true =>
      rw [generateExpression_value line before isValue]
      exact .bind (afterValue_typed operand) fun next =>
        (generateExpression_typed line next rest literal.2).weaken And.right
          fun _ _ typed => typed
    | false =>
      obtain ⟨op, rfl⟩ := Token.exists_operator isValue
      rw [generateExpression]
      exact .bind (afterOperator_typed op) fun next =>
        (generateExpression_typed line next rest literal.2).weaken And.right
          fun _ _ typed => typed

end

theorem literal_evaluates {N : Type} (runtime : Runtime N) {tokens : List Token}
    (literal : tokensLiteral tokens = true) (readable : tokensReadable true tokens = true)
    (line : Nat) (before : Context)
    (accepted : (generateTokens tokens line before).2.diagnostics = before.diagnostics) :
    ∃ value result, (generateTokens tokens line before).1 = some value ∧
      HasType value.code value.type ∧ Evaluates runtime value.code value.type result ∧
      ∀ indent, (Target.readExpression (value.code.write indent).toList).bind
        (Target.Tree.eval? runtime) = some result := by
  obtain ⟨value, found, typed⟩ := ((generateExpression_typed line (.wanted none []) tokens
    literal).weaken (fun _ => Operand.hasTypes_start) fun _ _ typed => typed).result_of_quiet
      before accepted
  obtain ⟨value', found', code⟩ := (generateTokens_code line tokens).result_of_quiet before accepted
  obtain rfl : value = value' := Option.some.inj (found.symm.trans found')
  obtain ⟨result, evaluates⟩ := typed.evaluates runtime
  refine ⟨value, result, found, typed, evaluates, fun indent => ?_⟩
  rw [(code.legible indent readable).operand.read]
  exact evaluates.value

/-- **Types agree with values, but for what `&&` and `||` hand on.** A literal expression that is
accepted is of type `number`, `string` or `boolean`, and its text evaluates to a value. The value is
that of the part that `&&` and `||` select, and it is of the type of that part: of the type of the
whole, unless that is `boolean` and a number or a string is selected. -/
theorem evaluates_to_type {N : Type} (runtime : Runtime N) {tokens : List Token}
    (literal : tokensLiteral tokens = true) (readable : tokensReadable true tokens = true)
    (line : Nat) (before : Context)
    (accepted : (generateTokens tokens line before).2.diagnostics = before.diagnostics) :
    ∃ value result part, (generateTokens tokens line before).1 = some value ∧
      value.type ∈ [.number, .string, .boolean] ∧ HasType value.code value.type ∧
      (∀ indent, (Target.readExpression (value.code.write indent).toList).bind
        (Target.Tree.eval? runtime) = some result) ∧
      (selected runtime value.code).tree.eval? runtime = some result ∧
      HasType (selected runtime value.code) part ∧ result.category = part.category ∧
      (result.category = value.type.category ∨
        value.type = .boolean ∧ (part = .number ∨ part = .string)) := by
  obtain ⟨value, result, found, typed, evaluates, read⟩ :=
    literal_evaluates runtime literal readable line before accepted
  obtain ⟨part, typedPart, category, agrees⟩ := evaluates.part
  refine ⟨value, result, part, found, typed.basic, typed, read, evaluates.selects, typedPart,
    category, ?_⟩
  have basic := typedPart.basic
  simp only [basicTypes, List.mem_cons, List.not_mem_nil, or_false] at basic
  rcases agrees with rfl | boolean
  · exact .inl category
  · rcases basic with rfl | rfl | rfl
    · exact .inr ⟨boolean, .inl rfl⟩
    · exact .inr ⟨boolean, .inr rfl⟩
    · exact .inl (boolean ▸ category)

/-- `("a" + 1 || true) == "a1" && -2`. -/
theorem evaluates_to_type_nested :
    let tokens := [Token.group [.text "a", .operator .add, .number (.ofDecimal false 1 0),
      .operator .or, .bool true], .operator .equals, .text "a1", .operator .and, .operator .sub,
      .number (.ofDecimal false 2 0)]
    let before := contextOf []
    tokensLiteral tokens = true ∧ tokensReadable true tokens = true ∧
    (generateTokens tokens 1 before).2.diagnostics = before.diagnostics ∧
    ∀ runtime : Runtime Int,
      ∃ value result part, (generateTokens tokens 1 before).1 = some value ∧
        value.type ∈ [.number, .string, .boolean] ∧ HasType value.code value.type ∧
        (∀ indent, (Target.readExpression (value.code.write indent).toList).bind
          (Target.Tree.eval? runtime) = some result) ∧
        (selected runtime value.code).tree.eval? runtime = some result ∧
        HasType (selected runtime value.code) part ∧ result.category = part.category ∧
        (result.category = value.type.category ∨
          value.type = .boolean ∧ (part = .number ∨ part = .string)) := by
  intro tokens before
  have literal : tokensLiteral tokens = true := rfl
  have readable : tokensReadable true tokens = true := by decide +kernel
  have accepted : (generateTokens tokens 1 before).2.diagnostics = before.diagnostics := rfl
  exact ⟨literal, readable, accepted,
    fun runtime => evaluates_to_type runtime literal readable 1 before accepted⟩

/-- `1 && 2` is of type `boolean`, and evaluates to a number. -/
theorem number_handed_on :
    let tokens := [Token.number (.ofDecimal false 1 0), .operator .and,
      .number (.ofDecimal false 2 0)]
    let before := contextOf []
    (generateTokens tokens 1 before).2.diagnostics = before.diagnostics ∧
    ∃ value, (generateTokens tokens 1 before).1 = some value ∧ value.type = .boolean ∧
      ∀ (N : Type) (runtime : Runtime N), ∃ result,
        (Target.readExpression (value.code.write 0).toList).bind (Target.Tree.eval? runtime) =
          some result ∧ result.category = "number" := by
  intro tokens before
  have readable : tokensReadable true tokens = true := by decide +kernel
  have accepted : (generateTokens tokens 1 before).2.diagnostics = before.diagnostics := rfl
  refine ⟨accepted, _, rfl, rfl, fun N runtime => ?_⟩
  obtain ⟨value, result, found, _, evaluates, read⟩ :=
    literal_evaluates runtime rfl readable 1 before accepted
  obtain rfl := Option.some.inj found
  refine ⟨result, read 0, ?_⟩
  obtain ⟨one, first⟩ := numberTree_eval runtime (head_write (.ofDecimal false 1 0))
  obtain ⟨two, second⟩ := numberTree_eval runtime (head_write (.ofDecimal false 2 0))
  have whole := (and_eval first).symm.trans evaluates.value
  split at whole
  · obtain rfl := Option.some.inj (second.symm.trans whole)
    rfl
  · obtain rfl := Option.some.inj whole
    rfl

end TypedScript
