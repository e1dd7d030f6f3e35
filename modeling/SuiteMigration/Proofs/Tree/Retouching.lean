import Mathlib.Tactic.Common
import SuiteMigration.Proofs.Tree.Filling
import SuiteMigration.Proofs.Tree.LegacyCalls

/-!
# Changing the trivia around a node

Other trivia before a node or after it leave every expression in it alike: words and shape stay, and
the value of an argument never ends the node, because the parenthesis that closes the arguments
follows it. So a property of calls that holds throughout a node holds throughout it afterwards.

## Main definitions

* `Refilled`, `Expr.Refilled` - what filling the places of a node makes of it

## Main results

* `Expr.throughout_setLeading`, `Expr.throughout_setTrailing` - an expression with other trivia
* `Statement.throughout_setLeading`, `Statement.throughout_setTrailing` - a statement with other
  trivia
-/

namespace SuiteMigration

variable {p : Expr → Prop}

/-! ### What filling keeps -/

/-- The new node has the given tokens, and the property holds throughout it if it did before. -/
structure Refilled (p : Expr → Prop) (tokensOf : α → List Token) (walk : α → List Visit)
    (old : α) (tokens : List Token) (new : α) : Prop where
  tokens_eq : tokensOf new = tokens
  visits : Throughout p (walk old) → Throughout p (walk new)

/-- An expression moreover keeps its name, and whether it is there at all. -/
structure Expr.Refilled (p : Expr → Prop) (old : Expr) (tokens : List Token) (new : Expr) : Prop
    extends SuiteMigration.Refilled p Expr.tokens (Expr.walk .everywhere) old tokens new where
  name : new.name? = old.name?
  isEmpty : new.isEmpty = old.isEmpty

/-- The new list is alike if no trivia at the end of a value were touched. -/
structure ArgumentsRefilled (p : Expr → Prop) (old : List Argument) (tokens : List Token)
    (new : List Argument) : Prop
    extends Refilled p tokensOfArguments (walkArguments .everywhere) old tokens new where
  alike : tokens.map Token.trailing = (tokensOfArguments old).map Token.trailing →
    List.Forall₂ Argument.Alike old new

/-- Between two parentheses no trivia at the end of a value are touched. -/
structure CallArguments.Refilled (p : Expr → Prop) (old : CallArguments) (tokens : List Token)
    (new : CallArguments) : Prop
    extends SuiteMigration.Refilled p CallArguments.tokens (CallArguments.walk .everywhere)
      old tokens new where
  isClosed : new.isClosed = old.isClosed
  alike : old.isClosed = true → List.Forall₂ Argument.Alike old.arguments new.arguments

/-- The trivia at the end depends on the trailing trivia only. -/
theorem endTrivia_congr {first second : List Token}
    (same : first.map Token.trailing = second.map Token.trailing) :
    endTrivia first = endTrivia second := by
  unfold endTrivia
  rw [← List.getLast?_map, ← List.getLast?_map, same]

/-- An expression that calls no legacy name keeps the property if its parts do. -/
theorem Expr.Refilled.ofParts (law : CallProperty p) {old new : Expr} {tokens : List Token}
    (tokens_eq : new.tokens = tokens)
    (parts : Throughout p (old.walk .everywhere).tail → Throughout p (new.walk .everywhere).tail)
    (other : new.isLegacyCall = false) (name : new.name? = old.name?)
    (isEmpty : new.isEmpty = old.isEmpty) : old.Refilled p tokens new :=
  { tokens_eq, name, isEmpty
    visits := fun visited =>
      law.throughout_of_parts other (parts (throughout_walk.1 visited).2) }

/-- A filled expression is alike if no trivia after its tokens were touched. -/
theorem Expr.Refilled.alike {old new : Expr} {tokens : List Token}
    (filled : old.Refilled p tokens new)
    (kept : tokens.map Token.trailing = old.tokens.map Token.trailing) : old.Alike new :=
  { name := fun _ _ named => filled.name ▸ named
    isEmpty := filled.isEmpty
    ending := endTrivia_congr (filled.tokens_eq.symm ▸ kept) }

/-- Whether a call is closed depends on the words of its parentheses only. -/
theorem CallArguments.isClosed_congr {old new : CallArguments}
    (left : new.leftParen.map Token.word = old.leftParen.map Token.word)
    (right : new.rightParen.map Token.word = old.rightParen.map Token.word) :
    new.isClosed = old.isClosed := by
  have stands (token : Option Token) : (token.any fun token => !token.isMissing) =
      (token.map Token.word).any fun word => !(word.2.isEmpty && word.1 != .endOfFile) := by
    cases token <;> rfl
  have opened : new.leftParen.isSome = old.leftParen.isSome := by
    simpa using congrArg Option.isSome left
  rw [isClosed, isClosed, stands, stands, opened, right]

/-! ### The recursion -/

-- The induction follows the tokens of a node. At a call it shows that the call is alike, and
-- everywhere else it only passes the property on to the parts.
mutual

/-- Filled with tokens of the same words an expression holds them, and its calls keep a property of
calls. -/
theorem Expr.fills (law : CallProperty p) (expr : Expr) :
    expr.fill.Fills expr.tokens (expr.Refilled p) := by
  match expr with
  | .identifier token =>
    refine .map .single fun _ value _ ⟨new_eq, same⟩ => .ofParts law new_eq.symm ?_ rfl ?_ rfl
    · simp [Expr.walk]
    · exact congrArg some (congrArg Prod.snd same)
  | .literal token =>
    refine .map .single fun _ value _ ⟨new_eq, _⟩ => .ofParts law new_eq.symm ?_ rfl rfl rfl
    simp [Expr.walk]
  | .raw tokens =>
    refine .map .run fun _ values edited new_eq => .ofParts law new_eq ?_ rfl rfl ?_
    · simp [Expr.walk]
    · have length_eq : values.length = tokens.length := new_eq ▸ edited.length_eq
      cases values <;> cases tokens <;> simp_all [Expr.isEmpty]
  | .member base period name =>
    refine .bind (fillsExpr? law base) fun _ _ _ _ base => .bind_token fun _ _ =>
      .bind_token_pure fun _ _ => .ofParts law ?_ ?_ rfl rfl rfl
    · simp [Expr.tokens, base.tokens_eq]
    · exact base.visits
  | .call callee arguments closure =>
    refine .cast (.bind (callee.fills law) fun _ newCallee _ kept filled =>
      .bind (arguments.fills law) fun _ newArguments _ _ list =>
      .bind_pure (fillsClosure? law closure) fun _ newClosure _ trailing => ?_)
      (List.append_assoc ..)
    have alike : Expr.CallsAlike (.call callee arguments closure)
        (.call newCallee newArguments newClosure) := by
      intro closed
      rw [list.isClosed] at closed
      -- The opening parenthesis follows the name.
      have followed : arguments.tokens ++ tokensOfClosure? closure ≠ [] := by
        simp [CallArguments.tokens_ne_nil closed]
      exact ⟨callee, arguments, closure, rfl, filled.alike (kept followed),
        ⟨list.isClosed, list.alike closed⟩, trailing.2⟩
    refine ⟨⟨?_, ?_⟩, rfl, rfl⟩
    · simp [Expr.tokens, filled.tokens_eq, list.tokens_eq, trailing.1.tokens_eq]
    · simp only [Expr.walk, throughout_expr, throughout_append]
      exact And.imp (law.alike _ _ alike)
        (And.imp (And.imp filled.visits list.visits) trailing.1.visits)
  | .index base arguments =>
    refine .bind (base.fills law) fun _ _ _ _ base =>
      .bind_pure (arguments.fills law) fun _ _ _ list => .ofParts law ?_ ?_ rfl rfl rfl
    · simp [Expr.tokens, base.tokens_eq, list.tokens_eq]
    · simp only [Expr.walk, List.tail_cons, throughout_append]
      exact And.imp base.visits list.visits
  | .sequence operands operators =>
    exact .bind_pure (fillsOperands law operands operators) fun _ _ _ filled =>
      .ofParts law filled.1 filled.2.1 rfl rfl rfl
  | .prefixed operator operand =>
    refine .bind_token fun _ _ => .bind_pure (operand.fills law) fun _ _ _ operand =>
      .ofParts law ?_ operand.visits rfl rfl rfl
    simp [Expr.tokens, operand.tokens_eq]
  | .suffixed operand operator =>
    refine .bind (operand.fills law) fun _ _ _ _ operand => .bind_token_pure fun _ _ =>
      .ofParts law ?_ operand.visits rfl rfl rfl
    simp [Expr.tokens, operand.tokens_eq]
  | .trying keyword mark operand =>
    refine .bind_token fun _ _ => .bind_node fun _ =>
      .bind_pure (operand.fills law) fun _ _ _ operand => .ofParts law ?_ operand.visits rfl rfl rfl
    simp [Expr.tokens, operand.tokens_eq]
  | .awaiting keyword operand =>
    refine .bind_token fun _ _ => .bind_pure (operand.fills law) fun _ _ _ operand =>
      .ofParts law ?_ operand.visits rfl rfl rfl
    simp [Expr.tokens, operand.tokens_eq]
  | .tuple elements =>
    exact .map (elements.fills law) fun _ _ _ elements =>
      .ofParts law elements.tokens_eq elements.visits rfl rfl rfl
  | .collection left elements right =>
    refine .bind_token fun _ _ => .bind (fillsElements law elements) fun _ _ _ _ elements =>
      .bind_token_pure fun _ _ => .ofParts law ?_ elements.visits rfl rfl rfl
    simp [Expr.tokens, elements.tokens_eq]
  | .closure closure =>
    exact .map (closure.fills law) fun _ _ _ closure =>
      .ofParts law closure.tokens_eq closure.visits rfl rfl rfl
  | .specialized base arguments =>
    refine .bind (base.fills law) fun _ _ _ _ base => .bind_tokens_pure fun _ =>
      .ofParts law ?_ base.visits rfl rfl rfl
    simp [Expr.tokens, base.tokens_eq]

theorem fillsExpr? (law : CallProperty p) (expr : Option Expr) :
    (fillExpr? expr).Fills (tokensOfExpr? expr)
      (Refilled p tokensOfExpr? (walkExpr? .everywhere) expr) := by
  match expr with
  | none => exact .pure ⟨rfl, id⟩
  | some expr =>
    exact .map (expr.fills law) fun _ _ _ filled => ⟨filled.tokens_eq, filled.visits⟩

theorem ArgumentList.fills (law : CallProperty p) (list : ArgumentList) :
    list.fill.Fills list.tokens
      (Refilled p ArgumentList.tokens (ArgumentList.walk .everywhere) list) := by
  match list with
  | ⟨opener, arguments, closer⟩ =>
    refine .bind_token fun _ _ => .bind (fillsArguments law arguments) fun _ _ _ _ filled =>
      .bind_token_pure fun newCloser _ => ⟨?_, filled.visits⟩
    simp [ArgumentList.tokens, filled.tokens_eq]

theorem CallArguments.fills (law : CallProperty p) (list : CallArguments) :
    list.fill.Fills list.tokens (list.Refilled p) := by
  match list with
  | ⟨left, arguments, right⟩ =>
    refine .cast (.bind (.token? left) fun _ newLeft _ _ leftFilled =>
      .bind (fillsArguments law arguments) fun _ _ _ kept filled =>
      .bind_pure (.token? right) fun _ newRight _ rightFilled =>
        ⟨⟨?_, filled.visits⟩, CallArguments.isClosed_congr leftFilled.2 rightFilled.2,
          fun closed => ?_⟩)
      (List.append_assoc ..)
    · simp [CallArguments.tokens, leftFilled.1, filled.tokens_eq, rightFilled.1]
    · refine filled.alike (kept ?_)
      cases right <;> simp_all [CallArguments.isClosed, Node.tokens]

theorem fillsArguments (law : CallProperty p) (arguments : List Argument) :
    (fillArguments arguments).Fills (tokensOfArguments arguments)
      (ArgumentsRefilled p arguments) := by
  match arguments with
  | [] => exact .pure ⟨⟨rfl, id⟩, fun _ => .nil⟩
  | ⟨label, value, comma⟩ :: later =>
    simp only [fillArguments, Argument.fill, bind_assoc, pure_bind]
    refine .cast (.bind (.option label) fun _ newLabel labelEdited _ labelFilled =>
      .bind (value.fills law) fun _ newValue valueEdited _ filled =>
      .bind (LawfulNode.fills comma) fun _ newComma commaEdited _ commaFilled =>
      .bind_pure (fillsArguments law later) fun _ _ _ laterFilled => ⟨⟨?_, ?_⟩, fun kept => ?_⟩)
      (by simp [tokensOfArguments, Argument.tokens])
    · simp [tokensOfArguments, Argument.tokens, labelFilled.1, filled.tokens_eq, commaFilled,
        laterFilled.tokens_eq]
    · simp only [walkArguments, throughout_append]
      exact And.imp filled.visits laterFilled.visits
    · simp only [tokensOfArguments, Argument.tokens, List.append_assoc] at kept
      obtain ⟨-, kept⟩ := labelEdited.kept_append kept
      obtain ⟨valueKept, kept⟩ := valueEdited.kept_append kept
      obtain ⟨-, laterKept⟩ := commaEdited.kept_append kept
      exact .cons ⟨labelFilled.2, filled.alike valueKept⟩ (laterFilled.alike laterKept)

theorem fillsOperands (law : CallProperty p) (operands : List Expr) (operators : List Token) :
    (fillOperands operands operators).Fills (tokensOfOperands operands operators) fun tokens new =>
      tokensOfOperands new.1 new.2 = tokens ∧
        (Throughout p (walkOperands .everywhere operands) →
          Throughout p (walkOperands .everywhere new.1)) ∧
        new.2.length = operators.length := by
  match operands with
  | [] => exact .pure ⟨rfl, id, rfl⟩
  | operand :: later =>
    refine .cast (.bind (operand.fills law) fun _ _ _ _ filled =>
      .bind (.token? operators.head?) fun _ operator _ _ operatorFilled =>
      .bind_pure (fillsOperands law later operators.tail) fun _ _ _ laterFilled => ?_)
      (List.append_assoc ..)
    have present : operator.isSome = operators.head?.isSome := by
      simpa using congrArg Option.isSome operatorFilled.2
    refine ⟨?_, ?_, ?_⟩
    · rw [tokensOfOperands_toList_append present laterFilled.2.2]
      simp [filled.tokens_eq, operatorFilled.1, laterFilled.1]
    · simp only [walkOperands, throughout_append]
      exact And.imp filled.visits laterFilled.2.1
    · exact length_toList_append present laterFilled.2.2

theorem fillsElements (law : CallProperty p) (elements : List CollectionElement) :
    (fillElements elements).Fills (tokensOfElements elements)
      (Refilled p tokensOfElements (walkElements .everywhere) elements) := by
  match elements with
  | [] => exact .pure ⟨rfl, id⟩
  | .value value comma :: later =>
    simp only [fillElements, CollectionElement.fill, bind_assoc, pure_bind]
    refine .cast (.bind (value.fills law) fun _ _ _ _ value => .bind_node fun _ =>
      .bind_pure (fillsElements law later) fun _ _ _ later => ⟨?_, ?_⟩)
      (by simp [tokensOfElements, CollectionElement.tokens])
    · simp [tokensOfElements, CollectionElement.tokens, value.tokens_eq, later.tokens_eq]
    · simp only [walkElements, throughout_append]
      exact And.imp value.visits later.visits
  | .entry key colon value comma :: later =>
    simp only [fillElements, CollectionElement.fill, bind_assoc, pure_bind]
    refine .cast (.bind (key.fills law) fun _ _ _ _ key => .bind_token fun _ _ =>
      .bind (value.fills law) fun _ _ _ _ value => .bind_node fun _ =>
      .bind_pure (fillsElements law later) fun _ _ _ later => ⟨?_, ?_⟩)
      (by simp [tokensOfElements, CollectionElement.tokens])
    · simp [tokensOfElements, CollectionElement.tokens, key.tokens_eq, value.tokens_eq,
        later.tokens_eq]
    · simp only [walkElements, throughout_append]
      exact And.imp (And.imp key.visits value.visits) later.visits

theorem Closure.fills (law : CallProperty p) (closure : Closure) :
    closure.fill.Fills closure.tokens
      (Refilled p Closure.tokens (Closure.walk .everywhere) closure) := by
  match closure with
  | ⟨left, signature, statements, right⟩ =>
    refine .cast (.bind_token fun _ _ => .bind_node fun _ =>
      .bind (fillsStatements law statements) fun _ _ _ _ statements =>
      .bind_token_pure fun _ _ => ⟨?_, ?_⟩) (by simp [Closure.tokens])
    · simp [Closure.tokens, statements.tokens_eq]
    · simpa [Closure.walk] using statements.visits

theorem fillsClosure? (law : CallProperty p) (closure : Option Closure) :
    (fillClosure? closure).Fills (tokensOfClosure? closure) fun tokens new =>
      Refilled p tokensOfClosure? (walkClosure? .everywhere) closure tokens new ∧
        new.isSome = closure.isSome := by
  match closure with
  | none => exact .pure ⟨⟨rfl, id⟩, rfl⟩
  | some closure =>
    exact .map (closure.fills law) fun _ _ _ filled => ⟨⟨filled.tokens_eq, filled.visits⟩, rfl⟩

theorem Statement.fills (law : CallProperty p) (statement : Statement) :
    statement.fill.Fills statement.tokens
      (Refilled p Statement.tokens (Statement.walk .everywhere) statement) := by
  match statement with
  | ⟨item, semicolon⟩ =>
    refine .bind (item.fills law) fun _ _ _ _ item => .bind_node_pure fun _ => ⟨?_, item.visits⟩
    simp [Statement.tokens, item.tokens_eq]

/-- So do some statements. -/
theorem fillsStatements (law : CallProperty p) (statements : List Statement) :
    (fillStatements statements).Fills (tokensOfStatements statements)
      (Refilled p tokensOfStatements (walkStatements .everywhere) statements) := by
  match statements with
  | [] => exact .pure ⟨rfl, id⟩
  | statement :: later =>
    refine .bind (statement.fills law) fun _ _ _ _ statement =>
      .bind_pure (fillsStatements law later) fun _ _ _ later => ⟨?_, ?_⟩
    · simp [tokensOfStatements, statement.tokens_eq, later.tokens_eq]
    · simp only [walkStatements, throughout_append]
      exact And.imp statement.visits later.visits

theorem Item.fills (law : CallProperty p) (item : Item) :
    item.fill.Fills item.tokens (Refilled p Item.tokens (Item.walk .everywhere) item) := by
  -- Filling reads the parts in the order of their tokens; the visits of the new node are then those
  -- of its parts.
  match item with
  | .expr expr =>
    exact .map (expr.fills law) fun _ _ _ expr => ⟨expr.tokens_eq, expr.visits⟩
  | .decl decl =>
    exact .map (decl.fills law) fun _ _ _ decl => ⟨decl.tokens_eq, decl.visits⟩
  | .returning keyword value =>
    refine .bind_token fun _ _ => .bind_pure (fillsExpr? law value) fun _ _ _ value =>
      ⟨?_, value.visits⟩
    simp [Item.tokens, value.tokens_eq]
  | .throwing keyword value =>
    refine .bind_token fun _ _ => .bind_pure (value.fills law) fun _ _ _ value =>
      ⟨?_, value.visits⟩
    simp [Item.tokens, value.tokens_eq]
  | .conditional statement =>
    exact .map (statement.fills law) fun _ _ _ statement =>
      ⟨statement.tokens_eq, statement.visits⟩
  | .guarding keyword conditions elseKeyword body =>
    refine .bind_token fun _ _ => .bind (fillsConditions law conditions) fun _ _ _ _ conditions =>
      .bind_token fun _ _ => .bind_pure (body.fills law) fun _ _ _ body => ⟨?_, ?_⟩
    · simp [Item.tokens, conditions.tokens_eq, body.tokens_eq]
    · simp only [Item.walk, throughout_append]
      exact And.imp conditions.visits body.visits
  | .forIn keyword modifiers pattern type inKeyword sequence filter body =>
    refine .cast (.bind_token fun _ _ => .bind_tokens fun _ => .bind_node fun _ =>
      .bind_node fun _ => .bind_token fun _ _ => .bind (sequence.fills law) fun _ _ _ _ sequence =>
      .bind (fillsClause? law filter) fun _ _ _ _ filter =>
      .bind_pure (body.fills law) fun _ _ _ body => ⟨?_, ?_⟩) (by simp [Item.tokens])
    · simp [Item.tokens, sequence.tokens_eq, filter.tokens_eq, body.tokens_eq]
    · simp only [Item.walk, List.cons_append, throughout_binds, throughout_append]
      exact And.imp (And.imp sequence.visits filter.visits) body.visits
  | .whileLoop keyword conditions body =>
    refine .bind_token fun _ _ => .bind (fillsConditions law conditions) fun _ _ _ _ conditions =>
      .bind_pure (body.fills law) fun _ _ _ body => ⟨?_, ?_⟩
    · simp [Item.tokens, conditions.tokens_eq, body.tokens_eq]
    · simp only [Item.walk, throughout_append]
      exact And.imp conditions.visits body.visits
  | .repeatLoop keyword body whileKeyword condition =>
    refine .bind_token fun _ _ => .bind (body.fills law) fun _ _ _ _ body =>
      .bind_token fun _ _ => .bind_pure (condition.fills law) fun _ _ _ condition => ⟨?_, ?_⟩
    · simp [Item.tokens, body.tokens_eq, condition.tokens_eq]
    · simp only [Item.walk, throughout_append]
      exact And.imp body.visits condition.visits
  | .doCatch keyword throwsClause body catches =>
    refine .cast (.bind_token fun _ _ => .bind_tokens fun _ =>
      .bind (body.fills law) fun _ _ _ _ body =>
      .bind_pure (fillsCatches law catches) fun _ _ _ catches => ⟨?_, ?_⟩) (by simp [Item.tokens])
    · simp [Item.tokens, body.tokens_eq, catches.tokens_eq]
    · simp only [Item.walk, throughout_append]
      exact And.imp body.visits catches.visits
  | .switching keyword subject left cases right =>
    refine .cast (.bind_token fun _ _ => .bind (subject.fills law) fun _ _ _ _ subject =>
      .bind_token fun _ _ => .bind (fillsCases law cases) fun _ _ _ _ cases =>
      .bind_token_pure fun _ _ => ⟨?_, ?_⟩) (by simp [Item.tokens])
    · simp [Item.tokens, subject.tokens_eq, cases.tokens_eq]
    · simp only [Item.walk, throughout_append]
      exact And.imp subject.visits cases.visits
  | .deferring keyword body =>
    refine .bind_token fun _ _ => .bind_pure (body.fills law) fun _ _ _ body => ⟨?_, body.visits⟩
    simp [Item.tokens, body.tokens_eq]
  | .raw tokens => exact .map .run fun _ _ _ new_eq => ⟨new_eq, id⟩

theorem CodeBlock.fills (law : CallProperty p) (block : CodeBlock) :
    block.fill.Fills block.tokens
      (Refilled p CodeBlock.tokens (CodeBlock.walk .everywhere) block) := by
  match block with
  | ⟨left, statements, right⟩ =>
    refine .bind_token fun _ _ => .bind (fillsStatements law statements) fun _ _ _ _ statements =>
      .bind_token_pure fun _ _ => ⟨?_, statements.visits⟩
    simp [CodeBlock.tokens, statements.tokens_eq]

theorem fillsBlock? (law : CallProperty p) (block : Option CodeBlock) :
    (fillBlock? block).Fills (tokensOfBlock? block)
      (Refilled p tokensOfBlock? (walkBlock? .everywhere) block) := by
  match block with
  | none => exact .pure ⟨rfl, id⟩
  | some block =>
    exact .map (block.fills law) fun _ _ _ filled => ⟨filled.tokens_eq, filled.visits⟩

theorem IfStatement.fills (law : CallProperty p) (statement : IfStatement) :
    statement.fill.Fills statement.tokens
      (Refilled p IfStatement.tokens (IfStatement.walk .everywhere) statement) := by
  match statement with
  | ⟨keyword, conditions, body, alternative⟩ =>
    refine .cast (.bind_token fun _ _ =>
      .bind (fillsConditions law conditions) fun _ _ _ _ conditions =>
      .bind (body.fills law) fun _ _ _ _ body =>
      .bind_pure (alternative.fills law) fun _ _ _ alternative => ⟨?_, ?_⟩)
      (by simp [IfStatement.tokens])
    · simp [IfStatement.tokens, conditions.tokens_eq, body.tokens_eq, alternative.tokens_eq]
    · simp only [IfStatement.walk, throughout_append]
      exact And.imp (And.imp conditions.visits body.visits) alternative.visits

theorem ElseClause.fills (law : CallProperty p) (alternative : ElseClause) :
    alternative.fill.Fills alternative.tokens
      (Refilled p ElseClause.tokens (ElseClause.walk .everywhere) alternative) := by
  match alternative with
  | .absent => exact .pure ⟨rfl, id⟩
  | .block keyword body =>
    refine .bind_token fun _ _ => .bind_pure (body.fills law) fun _ _ _ body => ⟨?_, body.visits⟩
    simp [ElseClause.tokens, body.tokens_eq]
  | .chained keyword next =>
    refine .bind_token fun _ _ => .bind_pure (next.fills law) fun _ _ _ next => ⟨?_, next.visits⟩
    simp [ElseClause.tokens, next.tokens_eq]

theorem fillsConditions (law : CallProperty p) (conditions : List Condition) :
    (fillConditions conditions).Fills (tokensOfConditions conditions)
      (Refilled p tokensOfConditions (walkConditions .everywhere) conditions) := by
  match conditions with
  | [] => exact .pure ⟨rfl, id⟩
  | .expr expr comma :: later =>
    simp only [fillConditions, Condition.fill, bind_assoc, pure_bind]
    refine .cast (.bind (expr.fills law) fun _ _ _ _ expr => .bind_node fun _ =>
      .bind_pure (fillsConditions law later) fun _ _ _ later => ⟨?_, ?_⟩)
      (by simp [tokensOfConditions, Condition.tokens])
    · simp [tokensOfConditions, Condition.tokens, expr.tokens_eq, later.tokens_eq]
    · simp only [walkConditions, throughout_append]
      exact And.imp expr.visits later.visits
  | .binding specifier pattern type initializer comma :: later =>
    simp only [fillConditions, Condition.fill, bind_assoc, pure_bind]
    refine .cast (.bind_token fun _ _ => .bind_node fun _ => .bind_node fun _ =>
      .bind (fillsClause? law initializer) fun _ _ _ _ initializer => .bind_node fun _ =>
      .bind_pure (fillsConditions law later) fun _ _ _ later => ⟨?_, ?_⟩)
      (by simp [tokensOfConditions, Condition.tokens])
    · simp [tokensOfConditions, Condition.tokens, initializer.tokens_eq, later.tokens_eq]
    · simp only [walkConditions, throughout_append, throughout_binds]
      exact And.imp initializer.visits later.visits

theorem Clause.fills (law : CallProperty p) (clause : Clause) :
    clause.fill.Fills clause.tokens
      (Refilled p Clause.tokens (Clause.walk .everywhere) clause) := by
  match clause with
  | ⟨mark, value⟩ =>
    refine .bind_token fun _ _ => .bind_pure (value.fills law) fun _ _ _ value =>
      ⟨?_, value.visits⟩
    simp [Clause.tokens, value.tokens_eq]

theorem fillsClause? (law : CallProperty p) (clause : Option Clause) :
    (fillClause? clause).Fills (tokensOfClause? clause)
      (Refilled p tokensOfClause? (walkClause? .everywhere) clause) := by
  match clause with
  | none => exact .pure ⟨rfl, id⟩
  | some clause =>
    exact .map (clause.fills law) fun _ _ _ filled => ⟨filled.tokens_eq, filled.visits⟩

theorem fillsCatches (law : CallProperty p) (catches : List CatchClause) :
    (fillCatches catches).Fills (tokensOfCatches catches)
      (Refilled p tokensOfCatches (walkCatches .everywhere) catches) := by
  match catches with
  | [] => exact .pure ⟨rfl, id⟩
  | ⟨keyword, pattern, body⟩ :: later =>
    simp only [fillCatches, CatchClause.fill, bind_assoc, pure_bind]
    refine .cast (.bind_token fun _ _ => .bind_tokens fun _ =>
      .bind (body.fills law) fun _ _ _ _ body =>
      .bind_pure (fillsCatches law later) fun _ _ _ later => ⟨?_, ?_⟩)
      (by simp [tokensOfCatches, CatchClause.tokens])
    · simp [tokensOfCatches, CatchClause.tokens, body.tokens_eq, later.tokens_eq]
    · simp only [walkCatches, throughout_append]
      exact And.imp body.visits later.visits

theorem fillsCases (law : CallProperty p) (cases : List SwitchCase) :
    (fillCases cases).Fills (tokensOfCases cases)
      (Refilled p tokensOfCases (walkCases .everywhere) cases) := by
  match cases with
  | [] => exact .pure ⟨rfl, id⟩
  | ⟨label, statements⟩ :: later =>
    simp only [fillCases, SwitchCase.fill, bind_assoc, pure_bind]
    refine .cast (.bind_tokens fun _ =>
      .bind (fillsStatements law statements) fun _ _ _ _ statements =>
      .bind_pure (fillsCases law later) fun _ _ _ later => ⟨?_, ?_⟩)
      (by simp [tokensOfCases, SwitchCase.tokens])
    · simp [tokensOfCases, SwitchCase.tokens, statements.tokens_eq, later.tokens_eq]
    · simp only [walkCases, throughout_append]
      exact And.imp statements.visits later.visits

theorem Decl.fills (law : CallProperty p) (decl : Decl) :
    decl.fill.Fills decl.tokens (Refilled p Decl.tokens (Decl.walk .everywhere) decl) := by
  match decl with
  | .importing decl =>
    exact .map (LawfulNode.fills decl) fun _ _ _ new_eq => ⟨new_eq, by simp [Decl.walk]⟩
  | .raw decl =>
    exact .map (LawfulNode.fills decl) fun _ _ _ new_eq => ⟨new_eq, by simp [Decl.walk]⟩
  | .type header members =>
    refine .bind_node fun _ => .bind_pure (members.fills law) fun _ _ _ members => ⟨?_, ?_⟩
    · simp [Decl.tokens, members.tokens_eq]
    · simpa [Decl.walk] using members.visits
  | .function header body =>
    refine .bind_node fun _ => .bind_pure (fillsBlock? law body) fun _ _ _ body => ⟨?_, ?_⟩
    · simp [Decl.tokens, body.tokens_eq]
    · simpa [Decl.walk] using body.visits
  | .variable header bindings =>
    refine .bind_node fun _ => .bind_pure (fillsBindings law bindings) fun _ _ _ bindings =>
      ⟨?_, ?_⟩
    · simp [Decl.tokens, bindings.tokens_eq]
    · simpa [Decl.walk] using bindings.visits
  | .initializer header body =>
    refine .bind_node fun _ => .bind_pure (fillsBlock? law body) fun _ _ _ body => ⟨?_, ?_⟩
    · simp [Decl.tokens, body.tokens_eq]
    · simpa [Decl.walk] using body.visits
  | .finalizer header body =>
    refine .bind_node fun _ => .bind_pure (fillsBlock? law body) fun _ _ _ body => ⟨?_, ?_⟩
    · simp [Decl.tokens, body.tokens_eq]
    · simpa [Decl.walk] using body.visits

theorem fillsBindings (law : CallProperty p) (bindings : List PatternBinding) :
    (fillBindings bindings).Fills (tokensOfBindings bindings)
      (Refilled p tokensOfBindings (walkBindings .everywhere) bindings) := by
  match bindings with
  | [] => exact .pure ⟨rfl, id⟩
  | ⟨pattern, type, initializer, accessor, comma⟩ :: later =>
    simp only [fillBindings, PatternBinding.fill, bind_assoc, pure_bind]
    refine .cast (.bind_node fun _ => .bind_node fun _ =>
      .bind (fillsClause? law initializer) fun _ _ _ _ initializer =>
      .bind (fillsBlock? law accessor) fun _ _ _ _ accessor => .bind_node fun _ =>
      .bind_pure (fillsBindings law later) fun _ _ _ later => ⟨?_, ?_⟩)
      (by simp [tokensOfBindings, PatternBinding.tokens])
    · simp [tokensOfBindings, PatternBinding.tokens, initializer.tokens_eq, accessor.tokens_eq,
        later.tokens_eq]
    · simp only [walkBindings, throughout_append]
      exact And.imp (And.imp initializer.visits accessor.visits) later.visits

end

/-! ### Other trivia at the ends -/

/-- Other trivia in front leaves the calls of an expression their property. -/
theorem Expr.throughout_setLeading (law : CallProperty p) {expr : Expr} (trivia : Trivia)
    (visited : Throughout p (expr.walk .everywhere)) :
    Throughout p ((Node.setLeading expr trivia).walk .everywhere) :=
  ((expr.fills law).refill (edited_leading trivia _)).visits visited

theorem Expr.throughout_setTrailing (law : CallProperty p) {expr : Expr} (trivia : Trivia)
    (visited : Throughout p (expr.walk .everywhere)) :
    Throughout p ((Node.setTrailing expr trivia).walk .everywhere) :=
  ((expr.fills law).refill (edited_trailing trivia _)).visits visited

/-- Other trivia in front leaves the calls of a statement their property. -/
theorem Statement.throughout_setLeading (law : CallProperty p) {statement : Statement}
    (trivia : Trivia) (visited : Throughout p (statement.walk .everywhere)) :
    Throughout p ((Node.setLeading statement trivia).walk .everywhere) :=
  ((statement.fills law).refill (edited_leading trivia _)).visits visited

theorem Statement.throughout_setTrailing (law : CallProperty p) {statement : Statement}
    (trivia : Trivia) (visited : Throughout p (statement.walk .everywhere)) :
    Throughout p ((Node.setTrailing statement trivia).walk .everywhere) :=
  ((statement.fills law).refill (edited_trailing trivia _)).visits visited

end SuiteMigration
