import Mathlib.Tactic.Common
import SuiteMigration.Tree.Layout

/-!
# How nodes are put together

The tokens of a node are those of its parts in a row, and filling a node fills its parts one after
the other. So a constructor can be seen as a function from a tuple of parts to a node that neither
reorders nor repeats places. What holds of a tuple as soon as it holds of its entries then holds of
every tree.

## Main definitions

* `Node.Assembles` - a function that puts the parts of a node together
* `OperatorRow` - the operands and operators of a sequence

## Main results

* `Expr.assembles_call`, `Item.assembles_forIn`, ... - every constructor of the tree is such a
  function
-/

namespace SuiteMigration

namespace Node

/-! ### Tuples of parts -/

instance : Node Unit where
  tokens _ := []
  fill _ := pure ()

instance {α β : Type} [Node α] [Node β] : Node (α × β) where
  tokens pair := tokens pair.1 ++ tokens pair.2
  fill pair := do
    let first ← fill pair.1
    let second ← fill pair.2
    return (first, second)

/-- The function makes a node of its parts: the node has the tokens and the places of the parts, in
the same order. -/
structure Assembles {α β : Type} [Node α] [Node β] (make : β → α) : Prop where
  tokens_eq : ∀ parts, tokens (make parts) = tokens parts
  fill_eq : ∀ parts, fill (make parts) = make <$> fill parts

end Node

open Node (Assembles)

/-- The operands and operators of a sequence, as a node of their own. -/
structure OperatorRow where
  operands : List Expr
  operators : List Token

instance : Node OperatorRow where
  tokens row := tokensOfOperands row.operands row.operators
  fill row := do
    let parts ← fillOperands row.operands row.operators
    return ⟨parts.1, parts.2⟩

variable {α : Type} [Node α]

theorem assembles_nil : Assembles fun _ : Unit => ([] : List α) :=
  ⟨fun _ => rfl, fun _ => rfl⟩

theorem assembles_cons : Assembles fun ((first, later) : α × List α) => first :: later :=
  ⟨fun _ => rfl, fun _ => List.mapM_cons⟩

theorem assembles_none : Assembles fun _ : Unit => (none : Option α) :=
  ⟨fun _ => rfl, fun _ => rfl⟩

theorem assembles_some : Assembles (some : α → Option α) :=
  ⟨fun _ => rfl, fun _ => rfl⟩

/-- A run of tokens holds itself. -/
theorem tokens_run (run : List Token) : Node.tokens run = run :=
  List.flatMap_singleton' run

/-! ### Parts that hold tokens only -/

theorem Attribute.assembles : Assembles fun (atSign, name, arguments) =>
    Attribute.mk atSign name arguments :=
  ⟨fun _ => by simp [Node.tokens], fun _ => rfl⟩

theorem Modifier.assembles : Assembles fun (name, detail) => Modifier.mk name detail :=
  ⟨fun _ => by simp [Node.tokens], fun _ => rfl⟩

theorem TypeAnnotation.assembles : Assembles fun (colon, type) => TypeAnnotation.mk colon type :=
  ⟨fun _ => by simp [Node.tokens], fun _ => rfl⟩

theorem Pattern.assembles_identifier : Assembles Pattern.identifier :=
  ⟨fun _ => rfl, fun _ => rfl⟩

theorem Pattern.assembles_raw : Assembles Pattern.raw :=
  ⟨fun _ => by simp [Node.tokens], fun _ => rfl⟩

theorem Label.assembles : Assembles fun (name, colon) => Label.mk name colon :=
  ⟨fun _ => rfl, fun _ => rfl⟩

theorem ClosureSignature.assembles : Assembles fun (tokens, inKeyword) =>
    ClosureSignature.mk tokens inKeyword :=
  ⟨fun _ => by simp [Node.tokens], fun _ => rfl⟩

theorem ParameterClause.assembles : Assembles fun (leftParen, parameters, rightParen) =>
    ParameterClause.mk leftParen parameters rightParen :=
  ⟨fun _ => by simp [Node.tokens], fun _ => rfl⟩

theorem InheritedType.assembles : Assembles fun (tokens, comma) =>
    InheritedType.mk tokens comma :=
  ⟨fun _ => by simp [Node.tokens], fun _ => rfl⟩

theorem InheritanceClause.assembles : Assembles fun (colon, types) =>
    InheritanceClause.mk colon types :=
  ⟨fun _ => rfl, fun _ => rfl⟩

theorem ImportDecl.assembles : Assembles fun (attributes, modifiers, keyword, kind, path) =>
    ImportDecl.mk attributes modifiers keyword kind path :=
  ⟨fun _ => by simp [Node.tokens], fun _ => rfl⟩

theorem RawDecl.assembles : Assembles fun (attributes, modifiers, tokens) =>
    RawDecl.mk attributes modifiers tokens :=
  ⟨fun _ => by simp [Node.tokens], fun _ => rfl⟩

theorem TypeHeader.assembles :
    Assembles fun (attributes, modifiers, keyword, name, generic, inheritance, constraints) =>
      TypeHeader.mk attributes modifiers keyword name generic inheritance constraints :=
  ⟨fun _ => by simp [Node.tokens], fun _ => rfl⟩

theorem FunctionHeader.assembles :
    Assembles fun (attributes, modifiers, keyword, name, generic, parameters, signature) =>
      FunctionHeader.mk attributes modifiers keyword name generic parameters signature :=
  ⟨fun _ => by simp [Node.tokens], fun _ => rfl⟩

theorem InitializerHeader.assembles :
    Assembles fun (attributes, modifiers, keyword, mark, generic, parameters, signature) =>
      InitializerHeader.mk attributes modifiers keyword mark generic parameters signature :=
  ⟨fun _ => by simp [Node.tokens], fun _ => rfl⟩

theorem KeywordHeader.assembles : Assembles fun (attributes, modifiers, keyword) =>
    KeywordHeader.mk attributes modifiers keyword :=
  ⟨fun _ => by simp [Node.tokens], fun _ => rfl⟩

/-! ### Lists and options of expressions, statements and declarations -/

/-- A function that goes through a list in the same way reads the tokens of the list. -/
theorem eq_tokens_of_cons (read : List α → List Token) (nil : read [] = [])
    (cons : ∀ first later, read (first :: later) = Node.tokens first ++ read later)
    (nodes : List α) : read nodes = Node.tokens nodes := by
  induction nodes with
  | nil => exact nil
  | cons first later ih =>
    rw [cons, ih]
    rfl

/-- A function that goes through a list in the same way fills the places of the list. -/
theorem eq_fill_of_cons (fillAll : List α → Supply (List α)) (nil : fillAll [] = pure [])
    (cons : ∀ first later, fillAll (first :: later) = do
      let first ← Node.fill first
      let later ← fillAll later
      return first :: later)
    (nodes : List α) : fillAll nodes = Node.fill nodes := by
  induction nodes with
  | nil => exact nil
  | cons first later ih =>
    rw [cons, ih]
    exact List.mapM_cons.symm

/-- Arguments hold their tokens as the items of any list do. -/
theorem tokensOfArguments_eq (arguments : List Argument) :
    tokensOfArguments arguments = Node.tokens arguments :=
  eq_tokens_of_cons tokensOfArguments rfl (fun _ _ => rfl) arguments

/-- They are filled as the items of any list are. -/
theorem fillArguments_eq (arguments : List Argument) :
    fillArguments arguments = Node.fill arguments :=
  eq_fill_of_cons fillArguments rfl (fun _ _ => rfl) arguments

/-- Without operators the operands of a sequence are a plain list. -/
theorem tokensOfOperands_nil (operands : List Expr) :
    tokensOfOperands operands [] = Node.tokens operands :=
  eq_tokens_of_cons (tokensOfOperands · []) rfl (fun _ _ => by simp [tokensOfOperands, Node.tokens])
    operands

/-- Operands without operators are filled one after the other. -/
theorem fillOperands_nil (operands : List Expr) :
    fillOperands operands [] = (·, []) <$> Node.fill operands := by
  induction operands with
  | nil => rfl
  | cons operand later ih =>
    show (do
      let operand ← operand.fill
      let parts ← fillOperands later []
      return (operand :: parts.1, parts.2)) = (·, []) <$> List.mapM Node.fill (operand :: later)
    rw [ih, List.mapM_cons]
    rfl

theorem tokensOfElements_eq (elements : List CollectionElement) :
    tokensOfElements elements = Node.tokens elements :=
  eq_tokens_of_cons tokensOfElements rfl (fun _ _ => rfl) elements

theorem fillElements_eq (elements : List CollectionElement) :
    fillElements elements = Node.fill elements :=
  eq_fill_of_cons fillElements rfl (fun _ _ => rfl) elements

/-- Statements hold their tokens as the items of any list do. -/
theorem tokensOfStatements_eq (statements : List Statement) :
    tokensOfStatements statements = Node.tokens statements :=
  eq_tokens_of_cons tokensOfStatements rfl (fun _ _ => rfl) statements

/-- They are filled as the items of any list are. -/
theorem fillStatements_eq (statements : List Statement) :
    fillStatements statements = Node.fill statements :=
  eq_fill_of_cons fillStatements rfl (fun _ _ => rfl) statements

theorem tokensOfConditions_eq (conditions : List Condition) :
    tokensOfConditions conditions = Node.tokens conditions :=
  eq_tokens_of_cons tokensOfConditions rfl (fun _ _ => rfl) conditions

theorem fillConditions_eq (conditions : List Condition) :
    fillConditions conditions = Node.fill conditions :=
  eq_fill_of_cons fillConditions rfl (fun _ _ => rfl) conditions

theorem tokensOfCatches_eq (catches : List CatchClause) :
    tokensOfCatches catches = Node.tokens catches :=
  eq_tokens_of_cons tokensOfCatches rfl (fun _ _ => rfl) catches

theorem fillCatches_eq (catches : List CatchClause) :
    fillCatches catches = Node.fill catches :=
  eq_fill_of_cons fillCatches rfl (fun _ _ => rfl) catches

theorem tokensOfCases_eq (branches : List SwitchCase) :
    tokensOfCases branches = Node.tokens branches :=
  eq_tokens_of_cons tokensOfCases rfl (fun _ _ => rfl) branches

theorem fillCases_eq (branches : List SwitchCase) :
    fillCases branches = Node.fill branches :=
  eq_fill_of_cons fillCases rfl (fun _ _ => rfl) branches

theorem tokensOfBindings_eq (bindings : List PatternBinding) :
    tokensOfBindings bindings = Node.tokens bindings :=
  eq_tokens_of_cons tokensOfBindings rfl (fun _ _ => rfl) bindings

theorem fillBindings_eq (bindings : List PatternBinding) :
    fillBindings bindings = Node.fill bindings :=
  eq_fill_of_cons fillBindings rfl (fun _ _ => rfl) bindings

/-! ### Expressions -/

theorem Expr.assembles_identifier : Assembles Expr.identifier :=
  ⟨fun _ => rfl, fun _ => rfl⟩

theorem Expr.assembles_literal : Assembles Expr.literal :=
  ⟨fun _ => rfl, fun _ => rfl⟩

theorem Expr.assembles_member : Assembles fun (base, period, name) =>
    Expr.member base period name where
  tokens_eq := by rintro ⟨_ | base, period, name⟩ <;> rfl
  fill_eq := by rintro ⟨_ | base, period, name⟩ <;> rfl

theorem Expr.assembles_call : Assembles fun (callee, arguments, trailing) =>
    Expr.call callee arguments trailing where
  tokens_eq := by rintro ⟨callee, list, _ | trailing⟩ <;> exact List.append_assoc ..
  fill_eq := by rintro ⟨callee, list, _ | trailing⟩ <;> rfl

theorem Expr.assembles_index : Assembles fun (base, arguments) => Expr.index base arguments :=
  ⟨fun _ => rfl, fun _ => rfl⟩

theorem Expr.assembles_sequence : Assembles fun row : OperatorRow =>
    Expr.sequence row.operands row.operators :=
  ⟨fun _ => rfl, fun _ => rfl⟩

theorem OperatorRow.assembles_nil (operators : List Token) :
    Assembles fun _ : Unit => OperatorRow.mk [] operators :=
  ⟨fun _ => rfl, fun _ => rfl⟩

theorem OperatorRow.assembles_cons :
    Assembles fun ((operand, operator, row) : Expr × Token × OperatorRow) =>
      OperatorRow.mk (operand :: row.operands) (operator :: row.operators) :=
  ⟨fun _ => List.append_assoc .., fun _ => rfl⟩

theorem OperatorRow.assembles_operands : Assembles fun operands => OperatorRow.mk operands [] where
  tokens_eq := tokensOfOperands_nil
  fill_eq operands := congrArg (fun action => do
    let parts ← action
    return OperatorRow.mk parts.1 parts.2) (fillOperands_nil operands)

theorem Expr.assembles_prefixed : Assembles fun (operator, operand) =>
    Expr.prefixed operator operand :=
  ⟨fun _ => rfl, fun _ => rfl⟩

theorem Expr.assembles_suffixed : Assembles fun (operand, operator) =>
    Expr.suffixed operand operator :=
  ⟨fun _ => rfl, fun _ => rfl⟩

theorem Expr.assembles_trying : Assembles fun (keyword, mark, operand) =>
    Expr.trying keyword mark operand :=
  ⟨fun _ => rfl, fun _ => rfl⟩

theorem Expr.assembles_awaiting : Assembles fun (keyword, operand) =>
    Expr.awaiting keyword operand :=
  ⟨fun _ => rfl, fun _ => rfl⟩

theorem Expr.assembles_tuple : Assembles Expr.tuple :=
  ⟨fun _ => rfl, fun _ => rfl⟩

theorem Expr.assembles_collection : Assembles fun (left, elements, right) =>
    Expr.collection left elements right where
  tokens_eq := fun (left, elements, right) =>
    congrArg (fun run => left :: run ++ [right]) (tokensOfElements_eq elements)
  fill_eq := fun (left, elements, right) => congrArg (fun action => do
    let left ← Node.fill left
    let elements ← action
    let right ← Node.fill right
    return Expr.collection left elements right) (fillElements_eq elements)

theorem Expr.assembles_closure : Assembles Expr.closure :=
  ⟨fun _ => rfl, fun _ => rfl⟩

theorem Expr.assembles_specialized : Assembles fun (base, arguments) =>
    Expr.specialized base arguments :=
  ⟨fun (base, arguments) => congrArg (base.tokens ++ ·) (tokens_run arguments).symm,
    fun _ => rfl⟩

theorem Expr.assembles_raw : Assembles Expr.raw :=
  ⟨fun run => (tokens_run run).symm, fun _ => rfl⟩

theorem ArgumentList.assembles : Assembles fun (opener, arguments, closer) =>
    ArgumentList.mk opener arguments closer where
  tokens_eq := fun (opener, arguments, closer) =>
    congrArg (fun run => opener :: run ++ [closer]) (tokensOfArguments_eq arguments)
  fill_eq := fun (opener, arguments, closer) => congrArg (fun action => do
    let opener ← Node.fill opener
    let arguments ← action
    let closer ← Node.fill closer
    return ArgumentList.mk opener arguments closer) (fillArguments_eq arguments)

theorem CallArguments.assembles : Assembles fun (left, arguments, right) =>
    CallArguments.mk left arguments right where
  tokens_eq := fun (left, arguments, right) => by
    show Node.tokens left ++ tokensOfArguments arguments ++ Node.tokens right = _
    rw [tokensOfArguments_eq, List.append_assoc]
    rfl
  fill_eq := fun (left, arguments, right) => congrArg (fun action => do
    let left ← Node.fill left
    let arguments ← action
    let right ← Node.fill right
    return CallArguments.mk left arguments right) (fillArguments_eq arguments)

theorem Argument.assembles : Assembles fun (label, value, comma) => Argument.mk label value comma :=
  ⟨fun _ => List.append_assoc .., fun _ => rfl⟩

theorem CollectionElement.assembles_value : Assembles fun (element, comma) =>
    CollectionElement.value element comma :=
  ⟨fun _ => rfl, fun _ => rfl⟩

theorem CollectionElement.assembles_entry : Assembles fun (key, colon, element, comma) =>
    CollectionElement.entry key colon element comma :=
  ⟨fun _ => List.append_assoc .., fun _ => rfl⟩

theorem Closure.assembles : Assembles fun (left, signature, statements, right) =>
    Closure.mk left signature statements right where
  tokens_eq := fun (left, signature, statements, right) => by
    show left :: Node.tokens signature ++ tokensOfStatements statements ++ [right] = _
    rw [tokensOfStatements_eq, List.append_assoc]
    rfl
  fill_eq := fun (left, signature, statements, right) => congrArg (fun action => do
    let left ← Node.fill left
    let signature ← Node.fill signature
    let statements ← action
    let right ← Node.fill right
    return Closure.mk left signature statements right) (fillStatements_eq statements)

/-! ### Statements -/

theorem Statement.assembles : Assembles fun (item, semicolon) => Statement.mk item semicolon :=
  ⟨fun _ => rfl, fun _ => rfl⟩

theorem Item.assembles_expr : Assembles Item.expr :=
  ⟨fun _ => rfl, fun _ => rfl⟩

theorem Item.assembles_decl : Assembles Item.decl :=
  ⟨fun _ => rfl, fun _ => rfl⟩

theorem Item.assembles_returning : Assembles fun (keyword, value) =>
    Item.returning keyword value where
  tokens_eq := by rintro ⟨keyword, _ | value⟩ <;> rfl
  fill_eq := by rintro ⟨keyword, _ | value⟩ <;> rfl

theorem Item.assembles_throwing : Assembles fun (keyword, value) => Item.throwing keyword value :=
  ⟨fun _ => rfl, fun _ => rfl⟩

theorem Item.assembles_conditional : Assembles Item.conditional :=
  ⟨fun _ => rfl, fun _ => rfl⟩

theorem Item.assembles_guarding : Assembles fun (keyword, conditions, elseKeyword, body) =>
    Item.guarding keyword conditions elseKeyword body where
  tokens_eq := fun (keyword, conditions, elseKeyword, body) =>
    congrArg (fun run => keyword :: run ++ elseKeyword :: body.tokens)
      (tokensOfConditions_eq conditions)
  fill_eq := fun (keyword, conditions, elseKeyword, body) => congrArg (fun action => do
    let keyword ← Node.fill keyword
    let conditions ← action
    let elseKeyword ← Node.fill elseKeyword
    let body ← body.fill
    return Item.guarding keyword conditions elseKeyword body) (fillConditions_eq conditions)

theorem Item.assembles_forIn :
    Assembles fun (keyword, modifiers, pattern, type, inKeyword, sequence, filter, body) =>
      Item.forIn keyword modifiers pattern type inKeyword sequence filter body where
  tokens_eq := fun (keyword, modifiers, pattern, type, inKeyword, sequence, filter, body) => by
    show keyword :: modifiers ++ Node.tokens pattern ++ Node.tokens type ++ inKeyword ::
      sequence.tokens ++ tokensOfClause? filter ++ body.tokens =
        keyword :: (Node.tokens modifiers ++ (Node.tokens pattern ++ (Node.tokens type ++
          inKeyword :: (sequence.tokens ++ (Node.tokens filter ++ body.tokens)))))
    rw [tokens_run]
    cases filter <;> simp [Node.tokens, tokensOfClause?]
  fill_eq := by
    rintro ⟨keyword, modifiers, pattern, type, inKeyword, sequence, _ | filter, body⟩ <;> rfl

theorem Item.assembles_whileLoop : Assembles fun (keyword, conditions, body) =>
    Item.whileLoop keyword conditions body where
  tokens_eq := fun (keyword, conditions, body) =>
    congrArg (fun run => keyword :: run ++ body.tokens) (tokensOfConditions_eq conditions)
  fill_eq := fun (keyword, conditions, body) => congrArg (fun action => do
    let keyword ← Node.fill keyword
    let conditions ← action
    let body ← body.fill
    return Item.whileLoop keyword conditions body) (fillConditions_eq conditions)

theorem Item.assembles_repeatLoop : Assembles fun (keyword, body, whileKeyword, condition) =>
    Item.repeatLoop keyword body whileKeyword condition :=
  ⟨fun _ => rfl, fun _ => rfl⟩

theorem Item.assembles_doCatch : Assembles fun (keyword, throwsClause, body, catches) =>
    Item.doCatch keyword throwsClause body catches where
  tokens_eq := fun (keyword, throwsClause, body, catches) => by
    show keyword :: throwsClause ++ body.tokens ++ tokensOfCatches catches =
      keyword :: (Node.tokens throwsClause ++ (body.tokens ++ Node.tokens catches))
    rw [tokens_run, tokensOfCatches_eq, List.append_assoc, List.cons_append]
  fill_eq := fun (keyword, throwsClause, body, catches) => congrArg (fun action => do
    let keyword ← Node.fill keyword
    let throwsClause ← Node.fill throwsClause
    let body ← body.fill
    let catches ← action
    return Item.doCatch keyword throwsClause body catches) (fillCatches_eq catches)

theorem Item.assembles_switching : Assembles fun (keyword, subject, left, cases, right) =>
    Item.switching keyword subject left cases right where
  tokens_eq := fun (keyword, subject, left, branches, right) => by
    show keyword :: subject.tokens ++ left :: tokensOfCases branches ++ [right] =
      keyword :: (subject.tokens ++ (left :: (Node.tokens branches ++ [right])))
    rw [tokensOfCases_eq, List.append_assoc, List.cons_append, List.cons_append]
  fill_eq := fun (keyword, subject, left, branches, right) => congrArg (fun action => do
    let keyword ← Node.fill keyword
    let subject ← subject.fill
    let left ← Node.fill left
    let branches ← action
    let right ← Node.fill right
    return Item.switching keyword subject left branches right) (fillCases_eq branches)

theorem Item.assembles_deferring : Assembles fun (keyword, body) => Item.deferring keyword body :=
  ⟨fun _ => rfl, fun _ => rfl⟩

theorem Item.assembles_raw : Assembles Item.raw :=
  ⟨fun run => (tokens_run run).symm, fun _ => rfl⟩

theorem CodeBlock.assembles : Assembles fun (left, statements, right) =>
    CodeBlock.mk left statements right where
  tokens_eq := fun (left, statements, right) =>
    congrArg (fun run => left :: run ++ [right]) (tokensOfStatements_eq statements)
  fill_eq := fun (left, statements, right) => congrArg (fun action => do
    let left ← Node.fill left
    let statements ← action
    let right ← Node.fill right
    return CodeBlock.mk left statements right) (fillStatements_eq statements)

theorem IfStatement.assembles : Assembles fun (keyword, conditions, body, alternative) =>
    IfStatement.mk keyword conditions body alternative where
  tokens_eq := fun (keyword, conditions, body, alternative) => by
    show keyword :: tokensOfConditions conditions ++ body.tokens ++ alternative.tokens = _
    rw [tokensOfConditions_eq, List.append_assoc]
    rfl
  fill_eq := fun (keyword, conditions, body, alternative) => congrArg (fun action => do
    let keyword ← Node.fill keyword
    let conditions ← action
    let body ← body.fill
    let alternative ← alternative.fill
    return IfStatement.mk keyword conditions body alternative) (fillConditions_eq conditions)

theorem ElseClause.assembles_absent : Assembles fun _ : Unit => ElseClause.absent :=
  ⟨fun _ => rfl, fun _ => rfl⟩

theorem ElseClause.assembles_block : Assembles fun (keyword, body) =>
    ElseClause.block keyword body :=
  ⟨fun _ => rfl, fun _ => rfl⟩

theorem ElseClause.assembles_chained : Assembles fun (keyword, next) =>
    ElseClause.chained keyword next :=
  ⟨fun _ => rfl, fun _ => rfl⟩

theorem Condition.assembles_expr : Assembles fun (test, comma) => Condition.expr test comma :=
  ⟨fun _ => rfl, fun _ => rfl⟩

theorem Condition.assembles_binding :
    Assembles fun (specifier, pattern, type, initializer, comma) =>
      Condition.binding specifier pattern type initializer comma where
  tokens_eq := by
    rintro ⟨specifier, pattern, type, _ | initializer, comma⟩ <;>
      simp [Node.tokens, Condition.tokens, tokensOfClause?]
  fill_eq := by rintro ⟨specifier, pattern, type, _ | initializer, comma⟩ <;> rfl

theorem Clause.assembles : Assembles fun (mark, value) => Clause.mk mark value :=
  ⟨fun _ => rfl, fun _ => rfl⟩

theorem CatchClause.assembles : Assembles fun (keyword, pattern, body) =>
    CatchClause.mk keyword pattern body :=
  ⟨fun (keyword, pattern, body) =>
    congrArg (fun run => keyword :: run ++ body.tokens) (tokens_run pattern).symm, fun _ => rfl⟩

theorem SwitchCase.assembles : Assembles fun (label, statements) =>
    SwitchCase.mk label statements where
  tokens_eq := fun (label, statements) => by
    show label ++ tokensOfStatements statements = Node.tokens label ++ Node.tokens statements
    rw [tokensOfStatements_eq, tokens_run]
  fill_eq := fun (label, statements) => congrArg (fun action => do
    let label ← Node.fill label
    let statements ← action
    return SwitchCase.mk label statements) (fillStatements_eq statements)

/-! ### Declarations -/

theorem Decl.assembles_importing : Assembles Decl.importing :=
  ⟨fun _ => rfl, fun _ => rfl⟩

theorem Decl.assembles_type : Assembles fun (header, members) => Decl.type header members :=
  ⟨fun _ => rfl, fun _ => rfl⟩

theorem Decl.assembles_function : Assembles fun (header, body) => Decl.function header body where
  tokens_eq := by rintro ⟨header, _ | body⟩ <;> rfl
  fill_eq := by rintro ⟨header, _ | body⟩ <;> rfl

theorem Decl.assembles_variable : Assembles fun (header, bindings) =>
    Decl.variable header bindings where
  tokens_eq := fun (header, bindings) =>
    congrArg (fun run => Node.tokens header ++ run) (tokensOfBindings_eq bindings)
  fill_eq := fun (header, bindings) => congrArg (fun action => do
    let header ← Node.fill header
    let bindings ← action
    return Decl.variable header bindings) (fillBindings_eq bindings)

theorem Decl.assembles_initializer : Assembles fun (header, body) =>
    Decl.initializer header body where
  tokens_eq := by rintro ⟨header, _ | body⟩ <;> rfl
  fill_eq := by rintro ⟨header, _ | body⟩ <;> rfl

theorem Decl.assembles_finalizer : Assembles fun (header, body) =>
    Decl.finalizer header body where
  tokens_eq := by rintro ⟨header, _ | body⟩ <;> rfl
  fill_eq := by rintro ⟨header, _ | body⟩ <;> rfl

theorem Decl.assembles_raw : Assembles Decl.raw :=
  ⟨fun _ => rfl, fun _ => rfl⟩

theorem PatternBinding.assembles : Assembles fun (pattern, type, initializer, accessor, comma) =>
    PatternBinding.mk pattern type initializer accessor comma where
  tokens_eq := by
    rintro ⟨pattern, type, _ | initializer, _ | accessor, comma⟩ <;>
      simp [Node.tokens, PatternBinding.tokens, tokensOfClause?, tokensOfBlock?]
  fill_eq := by rintro ⟨pattern, type, _ | initializer, _ | accessor, comma⟩ <;> rfl

theorem SourceFile.assembles : Assembles fun (statements, endOfFile) =>
    SourceFile.mk statements endOfFile where
  tokens_eq := fun (statements, endOfFile) =>
    congrArg (· ++ [endOfFile]) (tokensOfStatements_eq statements)
  fill_eq := fun (statements, endOfFile) => congrArg (fun action => do
    let statements ← action
    let endOfFile ← Node.fill endOfFile
    return SourceFile.mk statements endOfFile) (fillStatements_eq statements)

end SuiteMigration
