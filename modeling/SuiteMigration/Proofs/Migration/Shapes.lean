import SuiteMigration.Migration
import SuiteMigration.Proofs.Expectation.Throwing
import SuiteMigration.Proofs.Migration.Changes
import SuiteMigration.Proofs.Reading.Shapes
import SuiteMigration.Proofs.Tree.Molding
import SuiteMigration.Proofs.Tree.Rendering

/-!
# The shapes of a migrated tree

No pass breaks a shape that the reader has established. The passes drop labelled arguments, merge two
of them, strip the last comma, build calls, sequences and declarations, take a closure from a call,
and remove or append inherited types. A part of a list keeps its condition, and so does a list whose
last entry is changed; a new entry in front has a comma unless it stands alone, and one at the end
comes after a comma that is put there.

## Main definitions

* `SoundArguments` - the condition on a list of arguments

## Main results

* `isSound_list_sublist`, `isSound_list_modifyLast` - parts of lists, and lists with another last
  entry
* `molds_assertionTransformer`, `molds_throwingTransformer`, `molds_suiteTransformer` - the
  transformers of the passes keep shapes sound
* `sound_run` - so does every pass
* `sound_runPasses_take` - the tree of a source is sound after any number of passes, and none of its
  sequences loses a token
-/

namespace SuiteMigration

/-! ### Lists with commas -/

section Lists

variable {hasComma : α → Bool} {change : α → α} {values : List α}

/-- A sound list stays sound when items are left out. -/
theorem isSound_list_sublist {commas part : List Bool} (sound : (Shape.list commas).IsSound)
    (isPart : part.Sublist commas) : (Shape.list part).IsSound := by
  rw [sound_list_iff] at sound ⊢
  exact sound.sublist isPart

/-- A sound list stays sound when its first item keeps its comma. -/
theorem isSound_list_modifyFirst (sound : (Shape.list (values.map hasComma)).IsSound)
    (same : ∀ value, hasComma (change value) = hasComma value) :
    (Shape.list ((modifyFirst change values).map hasComma)).IsSound := by
  cases values with
  | nil => exact sound
  | cons first later => simpa [modifyFirst, same] using sound

/-- Nothing is asked of the last entry, so it may be any other one. -/
theorem isSound_list_modifyLast (sound : (Shape.list (values.map hasComma)).IsSound) :
    (Shape.list ((modifyLast change values).map hasComma)).IsSound := by
  rcases List.eq_nil_or_concat values with rfl | ⟨before, last, rfl⟩
  · exact sound
  · rw [List.concat_eq_append] at sound ⊢
    rw [modifyLast_concat]
    simpa [Shape.IsSound] using sound

/-- An entry is appended once the one before it has got a comma. -/
theorem isSound_list_append (sound : (Shape.list (values.map hasComma)).IsSound) (last : α)
    (followed : ∀ value, hasComma (change value) = true) :
    (Shape.list ((modifyLast change values ++ [last]).map hasComma)).IsSound := by
  rcases List.eq_nil_or_concat values with rfl | ⟨before, previous, rfl⟩
  · simp [modifyLast, Shape.IsSound]
  · rw [List.concat_eq_append] at sound ⊢
    rw [modifyLast_concat]
    simpa [Shape.IsSound, followed, or_imp, forall_and] using sound

end Lists

/-! ### Arguments and conditions -/

/-- The list of the arguments is sound, and so are their values. -/
structure SoundArguments (arguments : List Argument) : Prop where
  commas : (Shape.list (arguments.map Argument.hasComma)).IsSound
  values : ∀ argument ∈ arguments, Sound argument.value.shapes

/-- The arguments of a call are sound, whatever its parentheses are. -/
theorem sound_callArguments {list : CallArguments} :
    Sound list.shapes ↔ SoundArguments list.arguments := by
  obtain ⟨left, arguments, right⟩ := list
  rw [CallArguments.shapes, sound_cons, sound_arguments]
  exact ⟨fun ⟨commas, values⟩ => ⟨commas, values⟩, fun ⟨commas, values⟩ => ⟨commas, values⟩⟩

/-- What is asked of a call: the shape that its parentheses give it, and its parts. -/
theorem sound_call {callee : Expr} {list : CallArguments} {closure : Option Closure} :
    Sound (Expr.call callee list closure).shapes ↔
      (callShape list closure).IsSound ∧ Sound callee.shapes ∧ SoundArguments list.arguments ∧
        Sound (shapesOfClosure? closure) := by
  simp [Expr.shapes, sound_callArguments]

/-- Parentheses around an expression are both there. -/
theorem Expr.sound_parenthesized {expr : Expr} (sound : Sound expr.shapes) :
    Sound expr.parenthesized.shapes := by
  have alone : (Shape.list [false]).IsSound := by decide
  simp [Expr.parenthesized, Expr.shapes, ArgumentList.shapes, shapesOfArguments, Argument.ofValue,
    Argument.hasComma, alone, sound]

theorem Expr.sound_ite_parenthesized {expr : Expr} (needed : Bool) (sound : Sound expr.shapes) :
    Sound (if needed then expr.parenthesized else expr).shapes := by
  split
  · exact sound_parenthesized sound
  · exact sound

/-- A comparison has one operator between two operands. -/
theorem sound_combined {left right : Expr} (operator : String) (leftSound : Sound left.shapes)
    (rightSound : Sound right.shapes) : Sound (combined left operator right).shapes := by
  have leftNew := Expr.sound_ite_parenthesized left.bindsLoosely leftSound
  have rightNew := Expr.sound_ite_parenthesized (right.bindsLoosely || right.isMarked) rightSound
  have pair : (Shape.sequence 2 1).IsSound := by decide
  simpa [combined, Expr.shapes, shapesOfOperands, pair, leftNew] using rightNew

/-- A negation is sound if its operand is. -/
theorem sound_negated {operand : Expr} (sound : Sound operand.shapes) :
    Sound (negated operand).shapes := by
  simpa [negated, Expr.shapes] using Expr.sound_ite_parenthesized operand.needsParens sound

namespace SoundArguments

variable {arguments : List Argument}

/-- Dropping the labelled arguments leaves a part of the list. -/
theorem positional (sound : SoundArguments arguments) : SoundArguments (positional arguments) where
  commas := isSound_list_sublist sound.commas (List.filter_sublist.map _)
  values argument member := sound.values argument (List.mem_filter.1 member).1

/-- Without its last comma a sound list of arguments is sound. -/
theorem stripComma (sound : SoundArguments arguments) : SoundArguments (stripComma arguments) where
  commas := isSound_list_modifyLast sound.commas
  values := by
    refine modifyLast_forall sound.values fun argument argumentSound => ?_
    unfold Argument.withoutComma
    split
    · exact argumentSound
    · split
      · simpa using argumentSound
      · exact argumentSound

theorem replaceFirst {first : Argument} {later : List Argument}
    (sound : SoundArguments (first :: later)) {value : Expr} (valueSound : Sound value.shapes) :
    SoundArguments ({ first with value } :: later) :=
  ⟨sound.commas, List.forall_mem_cons.2 ⟨valueSound, (List.forall_mem_cons.1 sound.values).2⟩⟩

/-- Without its first item a sound list of arguments is sound. -/
theorem tail {first : Argument} {later : List Argument} (sound : SoundArguments (first :: later)) :
    SoundArguments later :=
  ⟨isSound_list_sublist sound.commas (List.sublist_cons_self _ _),
    (List.forall_mem_cons.1 sound.values).2⟩

/-- The condition of an expectation is sound if the arguments it is made of are. -/
theorem apply (synthesis : Synthesis) (sound : SoundArguments arguments) :
    SoundArguments (synthesis.apply arguments) := by
  match synthesis, arguments, sound with
  | .negate, first :: later, sound =>
    exact sound.replaceFirst (sound_negated (List.forall_mem_cons.1 sound.values).1)
  | .compare operator, left :: right :: later, sound =>
    -- The comparison takes the comma of its right operand.
    obtain ⟨leftSound, othersSound⟩ := List.forall_mem_cons.1 sound.values
    obtain ⟨rightSound, laterSound⟩ := List.forall_mem_cons.1 othersSound
    exact ⟨sound.tail.commas,
      List.forall_mem_cons.2 ⟨sound_combined operator leftSound rightSound, laterSound⟩⟩
  | .nilCheck operator, first :: later, sound =>
    exact sound.replaceFirst
      (sound_combined operator (List.forall_mem_cons.1 sound.values).1 sound_nil)
  | .none, _, sound | .negate, [], sound | .compare _, [], sound | .compare _, [_], sound
  | .nilCheck _, [], sound => exact sound

end SoundArguments

/-! ### Assertions -/

/-- A macro has no parts that could be unsound. -/
theorem Replacement.sound_callee (replacement : Replacement) (old : Expr) :
    Sound (replacement.callee old).shapes := by
  cases replacement <;> exact sound_nil

/-- The call of an assertion is migrated only with both parentheses, and it keeps them. -/
theorem sound_migrateAssertion (rule : AssertionRule) {callee : Expr} {list : CallArguments}
    {closure : Option Closure} (closed : list.isClosed = true)
    (sound : Sound (Expr.call callee list closure).shapes) :
    Sound (migrateAssertion rule callee list closure).shapes := by
  obtain ⟨-, -, arguments, closureSound⟩ := sound_call.1 sound
  have closedNew : ∀ arguments, ({ list with arguments } : CallArguments).isClosed = true :=
    fun _ => closed
  refine sound_call.2 ⟨isSound_callShape_of_isClosed (closedNew _) closure,
    rule.replacement.sound_callee callee, ?_, closureSound⟩
  exact (arguments.positional.apply rule.synthesis).stripComma

/-- The pass over assertions makes sound trees of sound trees. -/
theorem molds_assertionTransformer : assertionTransformer.Molds where
  expr expr parts _ yields := by
    refine yields.bind fun new sound => ?_
    cases found : new.expectation? with
    | none => exact .pure sound
    | some expectation =>
      obtain ⟨rule, callee, list, closure, rfl, closed, rfl⟩ :=
        exists_of_expectation?_eq_some found
      exact .after fun _ => .pure (sound_migrateAssertion rule closed sound)
  closure _ _ _ yields := yields
  decl _ _ _ yields := yields
  statement _ _ _ yields := yields.sound_singleton

/-! ### Assertions about errors -/

/-- A space in front of the first message leaves the list sound. -/
theorem SoundArguments.spaced {messages : List Argument} (sound : SoundArguments messages) :
    SoundArguments (modifyFirst ThrowExpectation.spacedMessage messages) := by
  cases messages with
  | nil => exact sound
  | cons first later =>
    refine sound.replaceFirst ?_
    simpa using (List.forall_mem_cons.1 sound.values).1

/-- The type of the error comes first, and has a comma just where a message follows. -/
theorem SoundArguments.typed {messages : List Argument} (expectation : ThrowExpectation)
    (sound : SoundArguments messages) :
    SoundArguments (expectation.typeArgument messages.isEmpty :: messages) where
  commas := by
    refine isSound_list_cons sound.commas fun alone => ?_
    cases messages with
    | nil => rfl
    | cons message later => cases alone
  values := by
    refine List.forall_mem_cons.2 ⟨?_, sound.values⟩
    cases expectation with
    | anyError =>
      show Sound [.list [false]]
      decide
    | never => exact sound_nil

/-- The call that an assertion about a block becomes is sound. -/
theorem ThrowExpectation.sound_call? {expectation : ThrowExpectation} {leading trailing : Trivia}
    {arguments : List Argument} {new : Expr} (sound : SoundArguments arguments)
    (found : expectation.call? leading trailing arguments = some new) : Sound new.shapes := by
  obtain ⟨body, messages, list, split_eq, closed, arguments_eq, rfl⟩ := exists_of_call?_eq_some found
  have kept := sound.positional
  rw [split_eq] at kept
  have bodySound : Sound body.value.shapes := (List.forall_mem_cons.1 kept.values).1
  refine sound_call.2 ⟨isSound_callShape_of_isClosed closed _, sound_nil, ?_, ?_⟩
  · rw [arguments_eq]
    exact kept.tail.stripComma.spaced.typed expectation
  · simpa [bodyClosure, shapesOfClosure?, Closure.shapes, shapesOfStatements, Statement.shapes,
      Statement.ofItem, Item.shapes] using bodySound

/-- Redirecting references makes sound trees of sound trees. -/
theorem molds_redirect (parameter : String) : (redirect parameter).Molds where
  expr expr parts sound yields := by
    simp only [redirect]
    -- A redirected name has no shapes, with or without the mark after it.
    split
    · split
      · exact .pure sound_nil
      · exact yields
    · split
      · exact .pure sound_nil
      · exact yields
    · exact yields
  closure closure parts sound yields := by
    simp only [redirect]
    split
    · exact .pure sound
    · exact yields
  decl _ _ _ yields := yields
  statement _ _ _ yields := yields.sound_singleton

/-- A statement that is moved out of a handler stays sound. -/
theorem Placement.sound_place (placement : Placement) (parameter : Option String)
    {statement : Statement} (sound : Sound statement.shapes) :
    Sound (placement.place parameter statement).shapes := by
  have placed : Sound (Node.setLeading statement
      (placement.leading (Node.leading statement))).shapes := by
    simpa using sound
  unfold Placement.place Statement.redirected
  cases parameter with
  | none => exact placed
  | some parameter => exact (molds_redirect parameter).yields_statement _ placed ()

/-- Joining statements leaves each of them sound. -/
theorem sound_joinStatements {statements : List Statement}
    (sound : ∀ statement ∈ statements, Sound statement.shapes) :
    ∀ statement ∈ joinStatements statements, Sound statement.shapes := by
  match statements with
  | [] => simp [joinStatements]
  | [last] => exact sound
  | first :: second :: later =>
    simp only [joinStatements, List.forall_mem_cons] at sound ⊢
    refine ⟨?_, sound_joinStatements (List.forall_mem_cons.2 sound.2)⟩
    rw [Statement.shapes_eq] at sound ⊢
    exact sound.1

theorem Statement.shapes_withClosingComments (statement : Statement) (placement : Placement)
    (closing : Trivia) :
    (statement.withClosingComments placement closing).shapes = statement.shapes := by
  unfold Statement.withClosingComments
  split
  · exact Statement.shapes_setTrailing _ _
  · rfl

theorem Statement.shapes_withTail (statement : Statement) (trailing : Trivia)
    (semicolon : Option Token) :
    (statement.withTail trailing semicolon).shapes = statement.shapes := by
  have placed := Statement.shapes_setTrailing statement
    ((if (Node.trailing statement).hasComment then Node.trailing statement else "") ++ trailing)
  rw [Statement.shapes_eq] at placed ⊢
  exact placed

theorem sound_errorBinding {leading : Trivia} {call : Expr} (sound : Sound call.shapes) :
    Sound (errorBinding leading call).shapes := by
  have alone : (Shape.list [false]).IsSound := by decide
  simp [errorBinding, Statement.ofItem, Statement.shapes, Item.shapes, Decl.shapes,
    shapesOfBindings, shapesOfClause?, Clause.shapes, shapesOfBlock?, PatternBinding.hasComma,
    alone, sound]

/-- A flattened handler is made of sound statements. -/
theorem sound_flattened? {statement : Statement} {firstInFile : Bool} {statements : List Statement}
    (sound : Sound statement.shapes) (found : statement.flattened? firstInFile = some statements) :
    Sound (shapesOfStatements statements) := by
  obtain ⟨callee, list, handler, expectation, call, placement, pieces, item_eq, call_eq,
    pieces_eq, rfl⟩ := Statement.exists_of_flattened?_eq_some found
  rw [Statement.shapes_eq, item_eq] at sound
  obtain ⟨-, -, argumentsSound, handlerSound⟩ := sound_call.1 sound
  have piecesSound : ∀ piece ∈ pieces, Sound piece.shapes := by
    rw [pieces_eq, List.forall_mem_cons, List.forall_mem_map]
    refine ⟨sound_errorBinding (ThrowExpectation.sound_call? argumentsSound call_eq), ?_⟩
    obtain ⟨left, signature, own, right⟩ := handler
    intro piece member
    exact placement.sound_place _ (sound_statements.1 handlerSound piece member)
  rw [sound_statements]
  -- The tail of the call only changes trivia, as does joining the pieces on one line.
  refine modifyLast_forall ?_ fun last lastSound => ?_
  swap
  · rw [Statement.shapes_withTail, Statement.shapes_withClosingComments]
    exact lastSound
  split
  · exact sound_joinStatements piecesSound
  · exact piecesSound

/-- The pass over assertions about blocks makes sound trees of sound trees. -/
theorem molds_throwingTransformer : throwingTransformer.Molds where
  expr expr parts _ yields := by
    rw [throwingTransformer_expr]
    refine yields.bind fun new sound => ?_
    cases found : new.throwing? with
    | none => exact .pure sound
    | some expectation =>
      obtain ⟨_, callee, list, rfl, -, call_eq⟩ := exists_of_throwing?_eq_some found
      obtain ⟨-, -, argumentsSound, -⟩ := sound_call.1 sound
      exact .after fun _ => .pure (ThrowExpectation.sound_call? argumentsSound call_eq)
  closure _ _ _ yields := yields
  decl _ _ _ yields := yields
  statement statement parts _ yields := by
    rw [throwingTransformer_statement]
    refine .after fun _ => .after fun _ => yields.bind fun new sound => ?_
    split
    · rename_i statements found
      exact .after fun _ => .pure (sound_flattened? sound found)
    · exact .pure (by simpa [shapesOfStatements] using sound)

/-! ### Inheritance clauses -/

/-- What is left of the types is a part of their list, up to the last entry. -/
theorem isSound_removeInherited {types : List InheritedType}
    (sound : (Shape.list (types.map InheritedType.hasComma)).IsSound) (index : Nat)
    (removed : InheritedType) :
    (Shape.list ((removeInherited types index removed).map InheritedType.hasComma)).IsSound := by
  have rest : (Shape.list ((types.eraseIdx index).map InheritedType.hasComma)).IsSound :=
    isSound_list_sublist sound ((List.eraseIdx_sublist types index).map _)
  simp only [removeInherited]
  split
  · exact isSound_list_modifyLast rest
  · split
    · exact isSound_list_modifyFirst rest fun _ => rfl
    · exact rest

/-- Without its base the header of a suite is sound. -/
theorem sound_removeBase {header : TypeHeader} (sound : Sound header.shapes) :
    Sound (removeBase header).shapes := by
  unfold removeBase
  split
  · rename_i clause index clause_eq _
    split
    · rename_i removed _
      simp only [TypeHeader.shapes, clause_eq, sound_cons, sound_nil, and_true] at sound
      split
      · -- The base was the only type, so the clause goes with it.
        simp [TypeHeader.shapes, modifyNameEnd_inheritance]
      · simpa [TypeHeader.shapes] using isSound_removeInherited sound index removed
    · exact sound
  · exact sound

/-- With the mark it is sound too. -/
theorem sound_addNoncopyable {header : TypeHeader} (sound : Sound header.shapes) :
    Sound (addNoncopyable header).shapes := by
  unfold addNoncopyable
  split
  · exact sound
  · split
    · rename_i clause clause_eq
      simp only [TypeHeader.shapes, clause_eq, sound_cons, sound_nil, and_true] at sound ⊢
      exact isSound_list_append sound _ fun _ => rfl
    · have alone (trailing : Trivia) :
          Sound [.list ([noncopyableType trailing].map InheritedType.hasComma)] := by
        simp [Shape.IsSound]
      rw [TypeHeader.shapes, modifyNameEnd_inheritance]
      exact alone _

/-! ### Suites -/

/-- Qualifying references makes sound trees of sound trees. -/
theorem molds_qualifier (table : SymbolTable) : (qualifier table).Molds where
  expr expr parts sound yields := by
    simp only [qualifier]
    split
    · refine .after fun state => ?_
      split
      · exact .after fun _ => .pure sound_nil
      · exact yields
    · exact yields
  closure closure parts sound yields :=
    .after fun _ => .after fun _ => yields.bind fun _ new => .after fun _ => .pure new
  decl decl parts sound yields := by
    simp only [qualifier]
    -- Only the values of variables are entered; other declarations stay as they are.
    split
    · exact yields.bind fun _ new => .after fun _ => .pure new
    · exact .after fun _ => .pure sound
    · exact .pure sound
  statement _ _ _ yields := yields.sound_singleton

theorem Statement.shapes_withCarried (statement : Statement) (carried : Option Trivia) :
    (statement.withCarried carried).shapes = statement.shapes := by
  cases carried with
  | none => rfl
  | some removed => simp [Statement.withCarried]

/-- A body without its calls of `super` is sound. -/
theorem sound_removeSuperCalls (lifecycle : Lifecycle) {body : Option CodeBlock}
    (sound : Sound (shapesOfBlock? body)) :
    Sound (shapesOfBlock? (body.map (removeSuperCalls lifecycle))) := by
  have kept (carried : Option Trivia) (statements : List Statement)
      (sound : Sound (shapesOfStatements statements)) :
      Sound (shapesOfStatements (dropSuperCalls lifecycle.names carried statements).1) := by
    induction statements generalizing carried with
    | nil => exact sound_nil
    | cons statement later ih =>
      simp only [shapesOfStatements, sound_append] at sound
      simp only [dropSuperCalls]
      split
      · -- The call is gone, and only its comments go on to the next statement.
        exact ih _ sound.2
      · simp only [shapesOfStatements, sound_append, Statement.shapes_withCarried]
        exact ⟨sound.1, ih none sound.2⟩
  cases body with
  | none => exact sound_nil
  | some block =>
    obtain ⟨left, statements, right⟩ := block
    exact kept none statements sound

theorem sound_ite_qualifyBody (needed : Bool) (table : SymbolTable) (header : FunctionHeader)
    {body : Option CodeBlock} (sound : Sound (shapesOfBlock? body)) :
    Sound (shapesOfBlock? (if needed then (qualifyBody table header body).1 else body)) := by
  split
  · exact (molds_qualifier table).yields_block? body sound _
  · exact sound

/-- A converted method is sound. -/
theorem sound_convertFunction (strategy : Strategy) (context : SuiteContext)
    (header : FunctionHeader) {body : Option CodeBlock} (sound : Sound (shapesOfBlock? body)) :
    Sound (convertFunction strategy context header body).shapes := by
  unfold convertFunction
  split
  · exact sound_removeSuperCalls .setUp sound
  · exact sound_removeSuperCalls .tearDown sound
  · exact sound_ite_qualifyBody _ _ _ sound

/-- A converted member is sound. -/
theorem sound_convertMember (strategy : Strategy) (context : SuiteContext) {statement : Statement}
    (sound : Sound statement.shapes) :
    Sound (convertMember strategy context statement).shapes := by
  unfold convertMember
  split
  · rename_i decl item_eq
    rw [Statement.shapes_eq] at sound ⊢
    rw [item_eq] at sound
    match decl, sound with
    | .function header body, sound => exact sound_convertFunction strategy context header sound
    | .variable header bindings, sound => exact sound
    | .initializer header body, sound => exact sound
    | .importing _, sound | .type _ _, sound | .finalizer _ _, sound | .raw _, sound => exact sound
  · exact sound

theorem sound_markMember (names : List String) {statement : Statement}
    (sound : Sound statement.shapes) : Sound (markMember names statement).shapes := by
  unfold markMember
  split
  · rename_i header body item_eq
    split
    · rw [Statement.shapes_eq] at sound ⊢
      rw [item_eq] at sound
      exact sound
    · exact sound
  · exact sound

/-- A block is sound if a change of its statements keeps each of them sound. -/
theorem CodeBlock.sound_map {change : Statement → Statement} {block : CodeBlock}
    (kept : ∀ statement, Sound statement.shapes → Sound (change statement).shapes)
    (sound : Sound block.shapes) :
    Sound (CodeBlock.shapes { block with statements := block.statements.map change }) := by
  obtain ⟨left, statements, right⟩ := block
  simp only [CodeBlock.shapes, sound_statements, List.forall_mem_map] at sound ⊢
  exact fun statement member => kept statement (sound statement member)

/-- A converted suite is sound. -/
theorem sound_convertSuite (strategy : Strategy) {header : TypeHeader} {members : CodeBlock}
    (sound : Sound (Decl.type header members).shapes) :
    Sound (convertSuite strategy header members).shapes := by
  simp only [Decl.shapes, sound_append] at sound
  have headerSound := sound_removeBase sound.1
  have converted := CodeBlock.sound_map
    (fun _ => sound_convertMember strategy (SuiteContext.ofMembers members)) sound.2
  cases strategy with
  | reference => exact sound_append.2 ⟨headerSound, converted⟩
  | value =>
    have structSound : Sound (removeBase header).toStruct.shapes := headerSound
    refine sound_append.2 ⟨?_, CodeBlock.sound_map (fun _ => sound_markMember _) converted⟩
    split
    · exact sound_addNoncopyable structSound
    · exact structSound

/-- Converting suites makes sound trees of sound trees. -/
theorem molds_suiteTransformer (strategy : Strategy) : (suiteTransformer strategy).Molds where
  expr _ _ _ yields := yields
  closure _ _ _ yields := yields
  decl decl parts sound yields := by
    simp only [suiteTransformer]
    -- A suite is converted as it was given, so its own soundness counts and not that of its parts.
    split
    · split
      · exact .after fun _ => .pure (sound_convertSuite strategy sound)
      · exact yields
    · exact .pure sound
    · exact yields
  statement _ _ _ yields := yields.sound_singleton

/-! ### Imports -/

theorem Statement.sound_withModule {statement : Statement} (module : String)
    (sound : Sound statement.shapes) : Sound (statement.withModule module).shapes := by
  unfold Statement.withModule
  split
  · exact sound_nil
  · exact sound

theorem sound_migrateImports (imported : Bool) (carried : Option Trivia)
    {statements : List Statement} (sound : Sound (shapesOfStatements statements)) :
    Sound (shapesOfStatements (migrateImports imported carried statements).1) := by
  induction statements generalizing imported carried with
  | nil => exact sound_nil
  | cons statement later ih =>
    simp only [shapesOfStatements, sound_append] at sound
    have carriedSound : Sound (statement.withCarried carried).shapes := by
      rw [Statement.shapes_withCarried]
      exact sound.1
    simp only [migrateImports]
    split
    · simp only [shapesOfStatements, sound_append]
      exact ⟨carriedSound, ih imported none sound.2⟩
    · split
      · -- A further import of the legacy framework is dropped.
        exact ih true _ sound.2
      · simp only [shapesOfStatements, sound_append]
        exact ⟨Statement.sound_withModule _ carriedSound, ih true none sound.2⟩

/-- The pass over imports makes a sound file of a sound file. -/
theorem sound_importPass {file : SourceFile} (sound : Sound file.shapes) :
    Sound (importPass.run file).file.shapes := by
  simp only [importPass]
  split
  · exact sound_migrateImports _ none sound
  · exact sound

/-! ### The passes -/

/-- So does every pass that walks through a file. -/
theorem sound_ofTransformer {σ : Type} {t : Transformer σ} (laws : t.Molds) (initial : σ)
    (changes : σ → Nat) {file : SourceFile} (sound : Sound file.shapes) :
    Sound (Outcome.ofTransformer t initial changes file).file.shapes :=
  laws.yields_statements file.statements sound initial

/-- Every pass makes a sound tree of a sound one. -/
theorem sound_run {strategy : Strategy} {pass : Pass} (member : pass ∈ passes strategy)
    {file : SourceFile} (sound : Sound file.shapes) : Sound (pass.run file).file.shapes := by
  simp only [passes, List.mem_cons, List.not_mem_nil, or_false] at member
  rcases member with rfl | rfl | rfl | rfl
  · exact sound_importPass sound
  · exact sound_ofTransformer molds_throwingTransformer {} _ sound
  · exact sound_ofTransformer molds_assertionTransformer 0 _ sound
  · exact sound_ofTransformer (molds_suiteTransformer strategy) 0 _ sound

/-- Passes that keep files sound keep them sound together. -/
theorem sound_runPasses {list : List Pass}
    (kept : ∀ pass ∈ list, ∀ file, Sound file.shapes → Sound (pass.run file).file.shapes)
    {file : SourceFile} (sound : Sound file.shapes) : Sound (runPasses list file).shapes := by
  induction list generalizing file with
  | nil => exact sound
  | cons pass later ih =>
    obtain ⟨first, rest⟩ := List.forall_mem_cons.1 kept
    simp only [runPasses]
    split
    · exact first file sound
    · exact ih rest (first file sound)

/-- The tree of a source text is sound as it is read and after each pass, with either strategy: a
sequence has an operator and one operand more than operators, a call has both parentheses or
neither, one with neither has no arguments and has a closure, and in a list every entry but the last
has a comma. So no sequence that is met in the file loses a token when it is rendered. -/
theorem sound_runPasses_take (strategy : Strategy) (source : String) (count : Nat) :
    let file := runPasses ((passes strategy).take count) (.parse source)
    Sound file.shapes ∧
      Throughout Expr.RendersOperators (walkStatements .everywhere file.statements) := by
  have kept : ∀ pass ∈ (passes strategy).take count, ∀ file,
      Sound file.shapes → Sound (pass.run file).file.shapes :=
    fun _ member _ => sound_run (List.mem_of_mem_take member)
  have sound := sound_runPasses kept (SourceFile.sound_parse source)
  exact ⟨sound, SourceFile.throughout_rendersOperators sound⟩

end SuiteMigration
