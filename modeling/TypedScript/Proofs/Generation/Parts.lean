/-
**Parts of generation.** Each step that generation is put together from makes code of its part of a
script, if the steps it is given do. A step that changes nothing is said to deliver code only.

* `resolveWith_makes`, `callTarget_makes`, `generateCall_makes`: accesses and calls.
* `inBlock_makes`, `functionBody_makes`: inner blocks.
* `generateDeclaration_ends`, …: the statements.
-/

import TypedScript.Proofs.Generation.Derivation

namespace TypedScript

variable {op : Operator} {operand receiver : Value} {value : Gen Value} {place : Context}
  {walk : Bool → Nat → Value → Gen Value} {kind : Value → List Helper → Prop} {helper : Helper}
  {awaited : Bool} {params : List Param} {returns type : Ty}

/-! ### Operators -/

section Operators

variable {line : Nat} {before : Operand} {taken : List Token} {used : List Helper}

/-- What comes before the next token is made of the tokens read so far. -/
def Operand.Reads (place : Context) (taken : List Token) (used : List Helper) : Operand → Prop
  | .complete value => TokensMade place taken value.code used
  | .wanted left prefixes =>
    (∀ op ∈ prefixes, op.isUnary = true) ∧
      ∃ front, taken = front ++ prefixes.reverse.map Token.operator ∧
        match left with
        | none => front = [] ∧ used = []
        | some (value, op) => op.joinsOperands = true ∧
            ∃ earlier, front = earlier ++ [.operator op] ∧ TokensMade place earlier value.code used

theorem Operand.reads_start : (Operand.wanted none []).Reads place [] [] :=
  ⟨by simp, [], rfl, rfl, rfl⟩

theorem afterOperator_reads :
    Gen.Delivers (before.Reads place taken used) (before.afterOperator line op)
      fun next => next.Reads place (taken ++ [.operator op]) used := by
  cases before with
  | wanted left prefixes =>
    refine .ite (fun isUnary => .pure fun reads => ?_) fun _ => .fail
    obtain ⟨unary, front, rfl, rest⟩ := reads
    refine ⟨List.forall_mem_cons.mpr ⟨isUnary, unary⟩, front, ?_, rest⟩
    rw [List.reverse_cons, List.map_append, List.append_assoc]
    rfl
  | complete value =>
    refine .ite (fun joins => .pure fun reads => ?_) fun _ => .fail
    exact ⟨by simp, taken ++ [.operator op], by simp, joins, taken, rfl, reads⟩

theorem applyPrefixes_code {prefixes : List Operator} {tokens : List Token} :
    Gen.Delivers ((∀ op ∈ prefixes, op.isUnary = true) ∧ OperandMade place tokens operand.code used)
      (applyPrefixes line prefixes operand)
      fun value => OperandMade place (prefixes.reverse.map Token.operator ++ tokens) value.code used
    := by
  induction prefixes generalizing operand tokens with
  | nil => exact .pure fun given => given.2
  | cons op rest ih =>
    refine .bind .ofExcept fun type =>
      (@ih ⟨type, unaryCode op operand.code⟩ (.operator op :: tokens)).weaken ?_
        fun value _ good => ?_
    · rintro ⟨⟨unary, code⟩, _⟩
      obtain ⟨first, unary⟩ := List.forall_mem_cons.mp unary
      exact ⟨unary, .unary first code⟩
    · rw [List.reverse_cons, List.map_append, List.append_assoc]
      exact good

def joinedCode : Option (Value × Operator) → Target.Expr → Target.Expr
  | none, code => code
  | some (left, op), code => .binary op left.code code

theorem applyLeft_code {assumed : Prop} {left : Option (Value × Operator)} :
    Gen.Delivers assumed (applyLeft line left operand)
      fun value => value.code = joinedCode left operand.code := by
  cases left with
  | none => exact .pure fun _ => rfl
  | some pair => exact .bind .ofExcept fun _ => .pure fun _ => rfl

theorem afterValue_reads {token : Token}
    (makes : Gen.Makes place True value fun operand => TokenMade place token operand.code) :
    Gen.Makes place (before.Reads place taken used) (before.afterValue line value)
      fun next more => next.Reads place (taken ++ [token]) (more ++ used) := by
  cases before with
  | complete _ => exact .fail
  | wanted left prefixes =>
    refine .bind makes.given fun operand more => .behind (.of_keeps applyPrefixes_keeps
      (applyPrefixes_code.weaken (fun given => ⟨given.1.1, .value given.2⟩) fun _ _ good => good))
      fun applied => .behind (.of_keeps applyLeft_keeps applyLeft_code) fun joined =>
        .pure fun given => ?_
    obtain ⟨⟨⟨⟨unary, front, rfl, rest⟩, _⟩, code⟩, joins⟩ := given
    show TokensMade place _ joined.code _
    rw [joins, List.append_assoc]
    cases left with
    | none =>
      rw [rest.1, rest.2, List.append_nil]
      exact .operand code
    | some pair =>
      obtain ⟨joinsOperands, earlier, rfl, earlierCode⟩ := rest
      rw [List.append_assoc]
      exact .binary earlierCode joinsOperands code

theorem atEnd_code :
    Gen.Delivers (before.Reads place taken used) (before.atEnd line)
      fun value => TokensMade place taken value.code used := by
  cases before with
  | wanted left prefixes => exact .fail
  | complete value => exact .pure fun reads => reads

end Operators

/-! ### Accesses -/

section Accesses

variable {assumed : Prop} {line : Nat} {base : String} {steps : List Step}

theorem resolveBase_makes :
    Gen.Finds place assumed (resolveBase base steps line) fun start =>
      place.Knows base ∧ StepsMade place (.name base) (steps.take start.2) start.1.code [] := by
  refine .behind .context fun context => ?_
  split
  · rename_i found
    exact .pure fun given => ⟨rfl, given.2.knows (Context.knows_of_lookup? found), .nil⟩
  · split
    · exact .fail
    · rename_i found
      split
      · split
        · exact .pure fun given =>
            ⟨rfl, given.2.knows (Context.knows_of_module? found), .property .nil⟩
        · exact .fail
      · exact .pure fun given => ⟨rfl, given.2.knows (Context.knows_of_module? found), .nil⟩

/-- An access is made of all its steps, if the steps that are left to `walk` are. -/
theorem resolveWith_makes {walk : Nat → Value → Gen Value}
    (walks : ∀ taken start, Gen.Makes place True (walk taken start) fun value =>
      StepsMade place start.code (steps.drop taken) value.code) :
    Gen.Makes place assumed (resolveWith base steps line walk) fun value used =>
      place.Knows base ∧ StepsMade place (.name base) steps value.code used := by
  refine .behind resolveBase_makes fun start =>
    (walks start.2 start.1).weaken (fun _ => trivial) fun value used given made => ?_
  obtain ⟨_, known, taken⟩ := given
  have all := taken.append made
  rw [List.take_append_drop, List.append_nil] at all
  exact ⟨known, all⟩

theorem accessMember_code {name : String} :
    Gen.Delivers assumed (accessMember receiver name line)
      fun value => value.code = .member receiver.code name :=
  .bind .ofExcept fun _ => .pure fun _ => rfl

theorem accessIndex_makes {index : Gen Value} (makes : Gen.Makes place True index kind) :
    Gen.Makes place assumed (accessIndex receiver index line) fun value used =>
      ∃ index, kind index used ∧ value.code = .index receiver.code index.code :=
  .behind .ofExcept fun _ => .bind makes.given fun index _ =>
    .behind .expect fun _ => .pure fun given => ⟨index, given.1.2, rfl⟩

end Accesses

/-! ### Calls -/

section Calls

variable {assumed : Prop} {line : Nat} {base name : String} {steps : List Step}

def CallTarget.code (arguments : List Target.Expr) : CallTarget → Target.Expr
  | .checked code receiver _ _ _ _ => .call code (receiver.toList ++ arguments)
  | .unchecked code => .call code arguments

theorem callValue_code {value : Value} :
    Gen.Delivers assumed (callValue value name line) fun target =>
      ∀ arguments, target.code arguments = .call value.code arguments :=
  .ite (fun _ => .pure fun _ _ => rfl) fun _ => .fail

theorem callName_makes :
    Gen.Finds place assumed (callName name line) fun target =>
      place.Knows name ∧ ∀ arguments, target.code arguments = .call (.name name) arguments := by
  refine .behind .context fun context => ?_
  split
  · exact .ite (fun _ => .fail) fun _ => .fail
  · rename_i found
    split
    · exact .pure fun given =>
        ⟨rfl, given.2.knows (Context.knows_of_lookup? found), fun _ => rfl⟩
    · exact (Gen.Finds.of_keeps callValue_keeps callValue_code).weaken id fun _ _ given same =>
        ⟨same.1, given.2.knows (Context.knows_of_lookup? found), same.2⟩

theorem callModule_code {module : Module} {member : String} :
    Gen.Delivers assumed (callModule module base member line) fun target =>
      ∀ arguments, target.code arguments = .call (.member (.name base) member) arguments := by
  unfold callModule
  split
  · exact .pure fun _ _ => rfl
  · split
    · exact callValue_code
    · exact .fail

theorem property_helper_name {category : String} {info : Property}
    (found : property? category name = some info) (emission : info.emission = .helper helper) :
    helper.name = "__hsc_" ++ name := by
  unfold property? at found
  repeat' split at found
  all_goals cases found <;> cases emission <;> subst name <;> rfl

theorem member_helper_name {receiver : Ty} {member : Member}
    (found : receiver.member name true = .ok member) (emission : member.emission = .helper helper) :
    helper.name = "__hsc_" ++ name := by
  unfold Ty.member at found
  simp only [Bool.or_true, if_true] at found
  split at found
  · cases found
    cases emission
  · split at found
    · rename_i info listed
      split at found
      · cases found
      · cases found
        exact property_helper_name listed emission
    · split at found
      · cases found
        cases emission
      · cases found

theorem callMember_makes :
    Gen.Makes place assumed (callMember receiver name line) fun target used =>
      (used = [] ∧ ∀ arguments,
        target.code arguments = .call (.member receiver.code name) arguments) ∨
      ∃ helper : Helper, used = [helper] ∧ helper.name = "__hsc_" ++ name ∧ ∀ arguments,
        target.code arguments = .call (.name helper.name) (receiver.code :: arguments) := by
  refine .behind .ofExcept fun member => .ite (fun _ => ?_) fun _ => ?_
  · exact (Gen.Finds.of_keeps callValue_keeps callValue_code).weaken id fun _ _ _ same => .inl same
  · split
    · exact .pure fun _ => .inl ⟨rfl, fun _ => rfl⟩
    · rename_i helper emission
      exact .bind .use fun _ used => .pure fun given =>
        .inr ⟨helper, given.2, member_helper_name given.1.2 emission, fun _ => rfl⟩

theorem callTarget_makes
    (walks : ∀ beforeLast taken start, Gen.Makes place True (walk beforeLast taken start)
      fun value => StepsMade place start.code
        ((if beforeLast then steps.dropLast else steps).drop taken) value.code) :
    Gen.Makes place assumed (callTarget base steps line walk) fun target used =>
      ∀ arguments codes more, ArgumentsMade place arguments codes more →
        CallMade place base steps arguments (target.code codes) (used ++ more) := by
  refine .behind .context fun context => ?_
  split
  · rename_i found
    refine (Gen.Finds.of_keeps callModule_keeps callModule_code).weaken id
      fun target used given same arguments codes more values => ?_
    rw [same.2, same.1]
    exact .callee (given.2.knows (Context.knows_of_module? found)) (.property .nil) values
  · unfold callSteps
    split
    · rename_i last
      refine callName_makes.weaken id fun target used _ found arguments codes more values => ?_
      obtain ⟨rfl, known, same⟩ := found
      rw [same, List.getLast?_eq_none_iff.mp last]
      exact .callee known .nil values
    · refine .bind (resolveWith_makes (walks false)) fun value used =>
        (Gen.Finds.of_keeps callValue_keeps callValue_code).weaken id
          fun target _ given same arguments codes more values => ?_
      obtain ⟨_, known, taken⟩ := given
      rw [same.1, same.2]
      exact .callee known taken values
    · rename_i name last
      obtain ⟨front, rfl⟩ := List.getLast?_eq_some_iff.mp last
      rw [List.dropLast_concat] at walks ⊢
      refine .bind (resolveWith_makes (walks true)) fun receiver used =>
        callMember_makes.weaken id fun target _ given found arguments codes more values => ?_
      obtain ⟨_, known, taken⟩ := given
      rcases found with ⟨rfl, same⟩ | ⟨helper, rfl, named, same⟩
      · rw [same]
        exact .callee known (taken.append (.property .nil)) values
      · rw [same]
        exact .helper known taken named values

theorem call_code {target : CallTarget} {arguments : List Value} :
    Gen.Delivers assumed (target.call arguments awaited line) fun value =>
      value.code = target.code (arguments.map Value.code) := by
  cases target with
  | unchecked code => exact .pure fun _ => rfl
  | checked code receiver params variadic returns async =>
    exact .bind .reportAll fun _ => .pure fun _ => rfl

theorem generateCall_makes {arguments : List (List Token)} {values : Gen (Option (List Value))}
    (made : Gen.Makes place True values fun values? used => ∃ values, values? = some values ∧
      ArgumentsMade place arguments (values.map Value.code) used)
    (walks : ∀ beforeLast taken start, Gen.Makes place True (walk beforeLast taken start)
      fun value => StepsMade place start.code
        ((if beforeLast then steps.dropLast else steps).drop taken) value.code) :
    Gen.Makes place assumed (generateCall awaited line values (callTarget base steps line walk))
      fun value used => CallMade place base steps arguments value.code used := by
  refine .bind made.given fun values? more => .bind (callTarget_makes walks) fun target used => ?_
  cases values? with
  | none =>
    refine .stop fun given => ?_
    obtain ⟨⟨_, values, absent, _⟩, _⟩ := given
    contradiction
  | some values =>
    refine (Gen.Finds.of_keeps call_keeps call_code).weaken id fun value _ given same => ?_
    obtain ⟨⟨_, values', found, codes⟩, called⟩ := given
    obtain rfl := Option.some.inj found
    rw [same.1, same.2]
    exact called _ _ _ codes

end Calls

/-! ### Inner blocks -/

section Blocks

variable {assumed : Prop} {line : Nat} {body : List Stmt}

/-- The statements of a block are made from wherever it is entered. -/
def BlockMakes (toplevel : Bool) (body : List Stmt) : Prop :=
  ∀ inside : Context,
    inside.diagnostics <+: (generateStatements toplevel body inside).2.diagnostics ∧
      ((generateStatements toplevel body inside).2.diagnostics = inside.diagnostics →
        ∃ code used, (generateStatements toplevel body inside).1 = some code ∧
          inside.Uses used (generateStatements toplevel body inside).2 ∧
            BlockMade toplevel inside body code used)

theorem inBlock_makes {bindings : List Binding} {names : List String}
    (inner : BlockMakes false body) (named : assumed → bindings.map Binding.name = names) :
    Gen.Makes place assumed (Gen.inBlock bindings line (do hoist body; generateStatements false body))
      fun code used =>
        ∃ inside, Opens place names body inside ∧ BlockMade false inside body code used := by
  have keeps : Gen.Keeps Context.SamePlace
      (Gen.inBlock bindings line (do hoist body; generateStatements false body)) :=
    (level_keeps (generateStatements_keeps body)).inBlock
  have entering : Gen.Keeps Context.SameBlock (do Gen.declareAll line bindings; hoist body) :=
    .bind .declareAll fun _ => hoist_keeps
  intro before
  obtain ⟨declared, declares, first⟩ := declareAll_run line bindings before.enterBlock
  obtain ⟨inside, hoists, second⟩ := hoist_run body declared
  have opened : (do Gen.declareAll line bindings; hoist body) before.enterBlock =
      (some (), inside) := by
    simp only [bind, Gen.andThen, declares, hoists]
  have run : Gen.inBlock bindings line (do hoist body; generateStatements false body) before =
      ((generateStatements false body inside).1,
        (generateStatements false body inside).2.leaveBlock) := by
    simp only [Gen.inBlock, bind, Gen.andThen, declares, hoists]
  have kept := keeps before
  rw [run] at kept ⊢
  refine ⟨kept.diagnostics, fun given alike quiet => ?_⟩
  obtain ⟨grown, result⟩ := inner inside
  have same : inside.diagnostics = before.diagnostics :=
    Context.quiet_between (entering.of_run opened).diagnostics grown quiet
  obtain ⟨code, used, found, uses, made⟩ := result (Eq.trans quiet same.symm)
  have helpers : inside.helpers = before.helpers := second.trans first
  exact ⟨code, used, found, fun helper => helpers ▸ uses helper, alike.samePlace kept, inside,
    ⟨before, line, bindings, alike, named given, opened, same⟩, made⟩

theorem parameterBindings_names :
    Gen.Delivers assumed (parameterBindings line params) fun bindings =>
      bindings.map Binding.name = params.map Param.name := by
  induction params generalizing assumed with
  | nil => exact .pure fun _ => rfl
  | cons param rest ih =>
    exact .bind .expect fun _ => .bind ih fun others => .pure fun given => by
      rw [List.map_cons, List.map_cons, given.2]

theorem functionBody_makes (inner : BlockMakes false body) :
    Gen.Makes place assumed
      (functionBody params returns line (do hoist body; generateStatements false body))
      fun code used => ∃ inside, Opens place (params.map Param.name) body inside ∧
        BlockMade false inside body code used :=
  .behind (.of_keeps parameterBindings_keeps parameterBindings_names) fun _ =>
    (inBlock_makes inner And.right).inFunction

end Blocks

/-! ### Statements -/

section Statements

variable {assumed : Prop} {line : Nat} {name base : String} {steps : List Step}

theorem reachFunction_makes : Gen.Finds place assumed (reachFunction name) fun _ => True := by
  have keeps : Gen.Keeps Context.SameBlock (reachFunction name) := reachFunction_keeps
  intro before
  have same : (reachFunction name before).2.helpers = before.helpers := by
    unfold reachFunction Gen.change
    dsimp only
    split <;> rfl
  refine ⟨(keeps before).diagnostics, fun _ alike _ =>
    ⟨(), [], rfl, .nothing same, ?_, rfl, trivial⟩⟩
  unfold reachFunction Gen.change
  dsimp only
  split
  · rename_i found
    refine alike.declare (List.mem_map.mpr ⟨_, List.mem_of_find?_eq_some found, ?_⟩)
    rfl
  · exact alike

theorem checkVariableType_delivers :
    Gen.Delivers assumed (checkVariableType type line) fun _ => True :=
  .ite (fun _ => .fail) fun _ => Gen.Delivers.ofExcept.weaken id fun _ _ _ => trivial

theorem checkReturnType_delivers :
    Gen.Delivers assumed (checkReturnType returns line) fun _ => True :=
  .ite (fun _ => .report) fun _ => .expect

theorem generateDeclaration_ends {constant : Bool} (makes : Gen.Makes place True value kind) :
    Gen.Ends place assumed (generateDeclaration name type value constant line)
      fun stmt used after => place.Gains after [name] ∧
        ∃ value, kind value used ∧ stmt = .declare constant name (type.truncate value.code) := by
  refine .behind (.of_keeps checkVariableType_keeps checkVariableType_delivers) fun _ =>
    .behind .context fun context => .passing (.bind makes.given.attempt fun value? used => ?_)
  cases value? with
  | none =>
    refine .behind (.of_keeps .pure .plain) fun recorded =>
      .unreachable (.guarded (.change fun _ => rfl) (.stop id)) fun given => ?_
    obtain ⟨⟨_, _, absent, _⟩, _⟩ := given
    contradiction
  | some value =>
    refine .behind .expect fun _ => .behind (.of_keeps .pure .plain) fun recorded =>
      .ite (fun _ => .changed (fun _ => ⟨rfl, rfl⟩) fun before given alike => ?_) fun taken => ?_
    · obtain ⟨⟨⟨_, value', same, good⟩, _⟩, _⟩ := given
      obtain rfl := Option.some.inj same
      exact ⟨alike.gains_declare _, value, good, rfl⟩
    · refine .unreachable .plain fun given => ?_
      obtain ⟨⟨⟨⟨_, untaken⟩, _⟩, _⟩, _⟩ := given
      exact taken (by simpa using untaken)

theorem integerTarget_delivers :
    Gen.Delivers assumed (integerTarget base steps line) fun _ => True := by
  refine .bind .context fun context => ?_
  split
  · split
    · exact .fail
    · exact .ite (fun _ => .ite (fun _ => .fail) fun _ => .plain)
        fun _ => .plain
  · exact .ite (fun _ => .fail) fun _ => .plain

/-- A modification stops in silence only after a side that has reported something. -/
theorem generateModification_makes {target : Gen Value} {kind' : Value → List Helper → Prop}
    (targets : Gen.Makes place True target kind) (values : Gen.Makes place True value kind') :
    Gen.Makes place assumed (generateModification base steps op target value line)
      fun stmt used => ∃ integer target value first second, kind target first ∧
        kind' value second ∧ used = second ++ first ∧
          stmt = assignmentCode integer op target.code value.code := by
  refine .behind (.of_keeps integerTarget_keeps integerTarget_delivers) fun integer =>
    .bind targets.given.attempt fun target? first => .bind values.given.attempt
      fun value? second => ?_
  split
  · rename_i target value
    refine .behind .ofExcept fun stored => .behind .expect fun _ => .pure fun given => ?_
    obtain ⟨⟨⟨⟨_, target', same, good⟩, value', same', good'⟩, _⟩, _⟩ := given
    obtain rfl := Option.some.inj same
    obtain rfl := Option.some.inj same'
    exact ⟨integer, target, value, first, second, good, good', rfl, rfl⟩
  · rename_i failed
    refine .stop fun given => ?_
    obtain ⟨⟨_, target', same, _⟩, value', same', _⟩ := given
    exact failed target' value' same same'

theorem generateCondition_makes {statement : String} {condition : Gen Value}
    (makes : Gen.Makes place True condition kind) :
    Gen.Makes place assumed (generateCondition statement condition line) fun code used =>
      ∃ value, kind value used ∧ code = value.code := by
  refine .bind makes.given.attempt fun value? used => ?_
  cases value? with
  | none =>
    refine .pure fun given => ?_
    obtain ⟨_, _, absent, _⟩ := given
    contradiction
  | some value =>
    refine .passing (.pure fun given => ?_)
    obtain ⟨⟨_, value', same, good⟩, _⟩ := given
    obtain rfl := Option.some.inj same
    exact ⟨value, good, rfl⟩

theorem generateImport_delivers {path : String} {toplevel : Bool} :
    Gen.Delivers assumed (generateImport path toplevel line) fun _ => True := by
  refine .bind .context fun context => .ite (fun _ => .report) fun _ =>
    .ite (fun _ => .report) fun _ => ?_
  split
  · exact .report
  · exact .ite (fun _ => .report) fun _ => .change fun _ => rfl

theorem returnType_delivers : Gen.Delivers assumed (returnType line) fun _ => True := by
  refine .bind .context fun context => ?_
  split
  · exact .fail
  · exact .plain

theorem generateReturn_delivers :
    Gen.Delivers assumed (generateReturn line) fun stmt => stmt = .returns none :=
  .bind returnType_delivers fun _ => .guarded .report (.pure fun _ => rfl)

theorem generateReturnOf_makes (makes : Gen.Makes place True value kind) :
    Gen.Makes place assumed (generateReturnOf value line) fun stmt used =>
      ∃ type value, kind value used ∧ stmt = .returns (some (Ty.truncate type value.code)) := by
  refine .behind (.of_keeps returnType_keeps returnType_delivers) fun expected =>
    .bind makes.given fun value _ => ?_
  exact .ite (fun _ => .behind .report fun _ => .pure fun given =>
      ⟨expected, value, given.1.2, rfl⟩)
    fun _ => .behind .expect fun _ => .pure fun given => ⟨expected, value, given.1.2, rfl⟩

end Statements

end TypedScript
