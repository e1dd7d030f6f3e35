import Mathlib.Tactic.Common
import SuiteMigration.Tree.Tokens
import SuiteMigration.Tree.Walk

/-!
# What holds of every expression of a tree

A property of expressions holds throughout a node if it holds of every expression that a walk into
all bodies meets there. Closures, declarations and bound names that are met on the way are skipped,
so the property of a node is the conjunction of the properties of its parts.

The walk stays within the node: what it meets owns no token that the node does not own.

## Main definitions

* `Throughout` - a property holds of every expression met

## Main results

* `throughout_walk` - an expression and its parts
* `throughout_within_statements` - the expressions met own tokens of the statements only
-/

namespace SuiteMigration

/-- The property holds of every expression met on a walk. -/
def Throughout (p : Expr → Prop) (visits : List Visit) : Prop :=
  ∀ expr, Visit.expr expr ∈ visits → p expr

section Throughout

variable {p q : Expr → Prop} {first second visits : List Visit}

@[simp] theorem throughout_nil : Throughout p [] := by
  intro expr member
  cases member

/-- The expression that is visited first has the property, and all that are visited later. -/
@[simp] theorem throughout_expr {expr : Expr} :
    Throughout p (.expr expr :: visits) ↔ p expr ∧ Throughout p visits := by
  simp [Throughout]

/-- A closure is no expression. -/
@[simp] theorem throughout_closure {closure : Closure} :
    Throughout p (.closure closure :: visits) ↔ Throughout p visits := by
  simp [Throughout]

/-- A declaration is no expression. -/
@[simp] theorem throughout_decl {decl : Decl} :
    Throughout p (.decl decl :: visits) ↔ Throughout p visits := by
  simp [Throughout]

/-- Names that come into scope are no expression. -/
@[simp] theorem throughout_binds {names : List String} :
    Throughout p (.binds names :: visits) ↔ Throughout p visits := by
  simp [Throughout]

/-- Visits in a row. -/
@[simp] theorem throughout_append :
    Throughout p (first ++ second) ↔ Throughout p first ∧ Throughout p second := by
  simp only [Throughout, List.mem_append]
  grind

/-- A weaker property holds as well. -/
theorem Throughout.mono (visited : Throughout p visits) (weaker : ∀ expr, p expr → q expr) :
    Throughout q visits :=
  fun expr member => weaker expr (visited expr member)

/-- An expression is met before its parts. -/
theorem throughout_walk {expr : Expr} :
    Throughout p (expr.walk .everywhere) ↔
      p expr ∧ Throughout p (expr.walk .everywhere).tail := by
  cases expr <;> simp [Expr.walk]

/-- The visits of a statement are those of its item. -/
theorem Statement.walk_eq (extent : Extent) (statement : Statement) :
    statement.walk extent = statement.item.walk extent := by
  cases statement
  rfl

/-- All expressions of some statements have a property if those of each statement have it. -/
theorem throughout_statements {statements : List Statement} :
    Throughout p (walkStatements .everywhere statements) ↔
      ∀ statement ∈ statements, Throughout p (statement.walk .everywhere) := by
  induction statements with
  | nil => simp [walkStatements]
  | cons statement later ih => simp [walkStatements, ih]

/-- The property holds throughout the values of the arguments. -/
def ThroughoutArguments (p : Expr → Prop) (arguments : List Argument) : Prop :=
  ∀ argument ∈ arguments, Throughout p (argument.value.walk .everywhere)

/-- All expressions of some arguments have a property if those of each argument have it. -/
theorem throughout_arguments {arguments : List Argument} :
    Throughout p (walkArguments .everywhere arguments) ↔ ThroughoutArguments p arguments := by
  unfold ThroughoutArguments
  induction arguments with
  | nil => simp [walkArguments]
  | cons argument later ih =>
    obtain ⟨label, value, comma⟩ := argument
    simp [walkArguments, ih]

theorem throughout_callArguments {list : CallArguments} :
    Throughout p (list.walk .everywhere) ↔ ThroughoutArguments p list.arguments := by
  obtain ⟨left, arguments, right⟩ := list
  exact throughout_arguments

end Throughout

/-! ### The tokens of what is met -/

/-- The expression owns no other tokens than the given ones. -/
def Expr.Within (tokens : List Token) (expr : Expr) : Prop :=
  expr.tokens ⊆ tokens

section Within

variable {tokens : List Token}

-- The induction follows the walk. It carries the tokens of the whole tree along, so that a part is
-- compared with them and not with the tokens of the node above it.
mutual

/-- The tokens of all expressions in an expression are among its tokens. -/
theorem Expr.throughout_within (expr : Expr) (within : expr.tokens ⊆ tokens) :
    Throughout (Expr.Within tokens) (expr.walk .everywhere) := by
  rw [throughout_walk]
  refine ⟨within, ?_⟩
  match expr with
  | .identifier _ | .literal _ | .raw _ => simp [Expr.walk]
  | .member base period name =>
    simp only [Expr.tokens, List.append_subset] at within
    simpa [Expr.walk] using throughout_within_expr? base within.1
  | .call callee arguments closure =>
    simp only [Expr.tokens, List.append_subset] at within
    simp [Expr.walk, callee.throughout_within within.1.1,
      arguments.throughout_within within.1.2,
      throughout_within_closure? closure within.2]
  | .index base arguments =>
    simp only [Expr.tokens, List.append_subset] at within
    simp [Expr.walk, base.throughout_within within.1, arguments.throughout_within within.2]
  | .sequence operands operators =>
    simpa [Expr.walk] using throughout_within_operands operands operators within
  | .prefixed operator operand =>
    simp only [Expr.tokens, List.cons_subset] at within
    simpa [Expr.walk] using operand.throughout_within within.2
  | .suffixed operand operator =>
    simp only [Expr.tokens, List.append_subset] at within
    simpa [Expr.walk] using operand.throughout_within within.1
  | .trying keyword mark operand =>
    simp only [Expr.tokens, List.append_subset] at within
    simpa [Expr.walk] using operand.throughout_within within.2
  | .awaiting keyword operand =>
    simp only [Expr.tokens, List.cons_subset] at within
    simpa [Expr.walk] using operand.throughout_within within.2
  | .tuple elements =>
    simpa [Expr.walk] using elements.throughout_within within
  | .collection left elements right =>
    simp only [Expr.tokens, List.append_subset, List.cons_subset] at within
    simpa [Expr.walk] using throughout_within_elements elements within.1.2
  | .closure closure =>
    simpa [Expr.walk] using closure.throughout_within within
  | .specialized base arguments =>
    simp only [Expr.tokens, List.append_subset] at within
    simpa [Expr.walk] using base.throughout_within within.1

theorem throughout_within_expr? (expr : Option Expr) (within : tokensOfExpr? expr ⊆ tokens) :
    Throughout (Expr.Within tokens) (walkExpr? .everywhere expr) := by
  match expr with
  | none => simp [walkExpr?]
  | some expr => exact expr.throughout_within within

theorem ArgumentList.throughout_within (list : ArgumentList) (within : list.tokens ⊆ tokens) :
    Throughout (Expr.Within tokens) (list.walk .everywhere) := by
  match list with
  | ⟨opener, arguments, closer⟩ =>
    simp only [ArgumentList.tokens, List.append_subset, List.cons_subset] at within
    simpa [ArgumentList.walk] using throughout_within_arguments arguments within.1.2

theorem CallArguments.throughout_within (list : CallArguments) (within : list.tokens ⊆ tokens) :
    Throughout (Expr.Within tokens) (list.walk .everywhere) := by
  match list with
  | ⟨left, arguments, right⟩ =>
    simp only [CallArguments.tokens, List.append_subset] at within
    simpa [CallArguments.walk] using throughout_within_arguments arguments within.1.2

theorem throughout_within_arguments (arguments : List Argument)
    (within : tokensOfArguments arguments ⊆ tokens) :
    Throughout (Expr.Within tokens) (walkArguments .everywhere arguments) := by
  match arguments with
  | [] => simp [walkArguments]
  | ⟨label, value, comma⟩ :: later =>
    simp only [tokensOfArguments, Argument.tokens, List.append_subset] at within
    simp [walkArguments, value.throughout_within within.1.1.2,
      throughout_within_arguments later within.2]

theorem throughout_within_operands (operands : List Expr) (operators : List Token)
    (within : tokensOfOperands operands operators ⊆ tokens) :
    Throughout (Expr.Within tokens) (walkOperands .everywhere operands) := by
  match operands with
  | [] => simp [walkOperands]
  | operand :: later =>
    simp only [tokensOfOperands, List.append_subset] at within
    simp [walkOperands, operand.throughout_within within.1.1,
      throughout_within_operands later operators.tail within.2]

theorem throughout_within_elements (elements : List CollectionElement)
    (within : tokensOfElements elements ⊆ tokens) :
    Throughout (Expr.Within tokens) (walkElements .everywhere elements) := by
  match elements with
  | [] => simp [walkElements]
  | .value value comma :: later =>
    simp only [tokensOfElements, CollectionElement.tokens, List.append_subset] at within
    simp [walkElements, value.throughout_within within.1.1,
      throughout_within_elements later within.2]
  | .entry key colon value comma :: later =>
    simp only [tokensOfElements, CollectionElement.tokens, List.append_subset,
      List.cons_subset] at within
    simp [walkElements, key.throughout_within within.1.1.1,
      value.throughout_within within.1.1.2.2, throughout_within_elements later within.2]

theorem Closure.throughout_within (closure : Closure) (within : closure.tokens ⊆ tokens) :
    Throughout (Expr.Within tokens) (closure.walk .everywhere) := by
  match closure with
  | ⟨left, signature, statements, right⟩ =>
    simp only [Closure.tokens, List.append_subset, List.cons_subset] at within
    simpa [Closure.walk] using throughout_within_statements statements within.1.2

theorem throughout_within_closure? (closure : Option Closure)
    (within : tokensOfClosure? closure ⊆ tokens) :
    Throughout (Expr.Within tokens) (walkClosure? .everywhere closure) := by
  match closure with
  | none => simp [walkClosure?]
  | some closure => exact closure.throughout_within within

theorem Statement.throughout_within (statement : Statement)
    (within : statement.tokens ⊆ tokens) :
    Throughout (Expr.Within tokens) (statement.walk .everywhere) := by
  match statement with
  | ⟨item, semicolon⟩ =>
    simp only [Statement.tokens, List.append_subset] at within
    simpa [Statement.walk] using item.throughout_within within.1

/-- The tokens of all expressions in some statements are among their tokens. -/
theorem throughout_within_statements (statements : List Statement)
    (within : tokensOfStatements statements ⊆ tokens) :
    Throughout (Expr.Within tokens) (walkStatements .everywhere statements) := by
  match statements with
  | [] => simp [walkStatements]
  | statement :: later =>
    simp only [tokensOfStatements, List.append_subset] at within
    simp [walkStatements, statement.throughout_within within.1,
      throughout_within_statements later within.2]

theorem Item.throughout_within (item : Item) (within : item.tokens ⊆ tokens) :
    Throughout (Expr.Within tokens) (item.walk .everywhere) := by
  match item with
  | .expr expr => exact expr.throughout_within within
  | .decl decl => exact decl.throughout_within within
  | .returning keyword value =>
    simp only [Item.tokens, List.cons_subset] at within
    exact throughout_within_expr? value within.2
  | .throwing keyword value =>
    simp only [Item.tokens, List.cons_subset] at within
    exact value.throughout_within within.2
  | .conditional statement => exact statement.throughout_within within
  | .guarding keyword conditions elseKeyword body =>
    simp only [Item.tokens, List.append_subset, List.cons_subset] at within
    simp [Item.walk, throughout_within_conditions conditions within.1.2,
      body.throughout_within within.2.2]
  | .forIn keyword modifiers pattern type inKeyword sequence filter body =>
    simp only [Item.tokens, List.append_subset, List.cons_subset] at within
    simp [Item.walk, sequence.throughout_within within.1.1.2.2,
      throughout_within_clause? filter within.1.2, body.throughout_within within.2]
  | .whileLoop keyword conditions body =>
    simp only [Item.tokens, List.append_subset, List.cons_subset] at within
    simp [Item.walk, throughout_within_conditions conditions within.1.2,
      body.throughout_within within.2]
  | .repeatLoop keyword body whileKeyword condition =>
    simp only [Item.tokens, List.append_subset, List.cons_subset] at within
    simp [Item.walk, body.throughout_within within.1.2, condition.throughout_within within.2.2]
  | .doCatch keyword throwsClause body catches =>
    simp only [Item.tokens, List.append_subset, List.cons_subset] at within
    simp [Item.walk, body.throughout_within within.1.2,
      throughout_within_catches catches within.2]
  | .switching keyword subject left cases right =>
    simp only [Item.tokens, List.append_subset, List.cons_subset] at within
    simp [Item.walk, subject.throughout_within within.1.1.2,
      throughout_within_cases cases within.1.2.2]
  | .deferring keyword body =>
    simp only [Item.tokens, List.cons_subset] at within
    exact body.throughout_within within.2
  | .raw _ => simp [Item.walk]

theorem CodeBlock.throughout_within (block : CodeBlock) (within : block.tokens ⊆ tokens) :
    Throughout (Expr.Within tokens) (block.walk .everywhere) := by
  match block with
  | ⟨left, statements, right⟩ =>
    simp only [CodeBlock.tokens, List.append_subset, List.cons_subset] at within
    simpa [CodeBlock.walk] using throughout_within_statements statements within.1.2

theorem throughout_within_block? (block : Option CodeBlock)
    (within : tokensOfBlock? block ⊆ tokens) :
    Throughout (Expr.Within tokens) (walkBlock? .everywhere block) := by
  match block with
  | none => simp [walkBlock?]
  | some block => exact block.throughout_within within

theorem IfStatement.throughout_within (statement : IfStatement)
    (within : statement.tokens ⊆ tokens) :
    Throughout (Expr.Within tokens) (statement.walk .everywhere) := by
  match statement with
  | ⟨keyword, conditions, body, alternative⟩ =>
    simp only [IfStatement.tokens, List.append_subset, List.cons_subset] at within
    simp [IfStatement.walk, throughout_within_conditions conditions within.1.1.2,
      body.throughout_within within.1.2, alternative.throughout_within within.2]

theorem ElseClause.throughout_within (alternative : ElseClause)
    (within : alternative.tokens ⊆ tokens) :
    Throughout (Expr.Within tokens) (alternative.walk .everywhere) := by
  match alternative with
  | .absent => simp [ElseClause.walk]
  | .block keyword body =>
    simp only [ElseClause.tokens, List.cons_subset] at within
    exact body.throughout_within within.2
  | .chained keyword next =>
    simp only [ElseClause.tokens, List.cons_subset] at within
    exact next.throughout_within within.2

theorem throughout_within_conditions (conditions : List Condition)
    (within : tokensOfConditions conditions ⊆ tokens) :
    Throughout (Expr.Within tokens) (walkConditions .everywhere conditions) := by
  match conditions with
  | [] => simp [walkConditions]
  | .expr expr comma :: later =>
    simp only [tokensOfConditions, Condition.tokens, List.append_subset] at within
    simp [walkConditions, expr.throughout_within within.1.1,
      throughout_within_conditions later within.2]
  | .binding specifier pattern type initializer comma :: later =>
    simp only [tokensOfConditions, Condition.tokens, List.append_subset] at within
    simp [walkConditions, throughout_within_clause? initializer within.1.1.2,
      throughout_within_conditions later within.2]

theorem Clause.throughout_within (clause : Clause) (within : clause.tokens ⊆ tokens) :
    Throughout (Expr.Within tokens) (clause.walk .everywhere) := by
  match clause with
  | ⟨mark, value⟩ =>
    simp only [Clause.tokens, List.cons_subset] at within
    exact value.throughout_within within.2

theorem throughout_within_clause? (clause : Option Clause)
    (within : tokensOfClause? clause ⊆ tokens) :
    Throughout (Expr.Within tokens) (walkClause? .everywhere clause) := by
  match clause with
  | none => simp [walkClause?]
  | some clause => exact clause.throughout_within within

theorem throughout_within_catches (catches : List CatchClause)
    (within : tokensOfCatches catches ⊆ tokens) :
    Throughout (Expr.Within tokens) (walkCatches .everywhere catches) := by
  match catches with
  | [] => simp [walkCatches]
  | ⟨keyword, pattern, body⟩ :: later =>
    simp only [tokensOfCatches, CatchClause.tokens, List.append_subset,
      List.cons_subset] at within
    simp [walkCatches, body.throughout_within within.1.2,
      throughout_within_catches later within.2]

theorem throughout_within_cases (cases : List SwitchCase)
    (within : tokensOfCases cases ⊆ tokens) :
    Throughout (Expr.Within tokens) (walkCases .everywhere cases) := by
  match cases with
  | [] => simp [walkCases]
  | ⟨label, statements⟩ :: later =>
    simp only [tokensOfCases, SwitchCase.tokens, List.append_subset] at within
    simp [walkCases, throughout_within_statements statements within.1.2,
      throughout_within_cases later within.2]

/-- The tokens of all expressions in a declaration are among its tokens. -/
theorem Decl.throughout_within (decl : Decl) (within : decl.tokens ⊆ tokens) :
    Throughout (Expr.Within tokens) (decl.walk .everywhere) := by
  match decl with
  | .importing _ | .raw _ => simp [Decl.walk]
  | .type header members =>
    simp only [Decl.tokens, List.append_subset] at within
    simpa [Decl.walk] using members.throughout_within within.2
  | .function header body | .initializer header body | .finalizer header body =>
    simp only [Decl.tokens, List.append_subset] at within
    simpa [Decl.walk] using throughout_within_block? body within.2
  | .variable header bindings =>
    simp only [Decl.tokens, List.append_subset] at within
    simpa [Decl.walk] using throughout_within_bindings bindings within.2

theorem throughout_within_bindings (bindings : List PatternBinding)
    (within : tokensOfBindings bindings ⊆ tokens) :
    Throughout (Expr.Within tokens) (walkBindings .everywhere bindings) := by
  match bindings with
  | [] => simp [walkBindings]
  | ⟨pattern, type, initializer, accessor, comma⟩ :: later =>
    simp only [tokensOfBindings, PatternBinding.tokens, List.append_subset] at within
    simp [walkBindings, throughout_within_clause? initializer within.1.1.1.2,
      throughout_within_block? accessor within.1.1.2, throughout_within_bindings later within.2]

end

end Within

end SuiteMigration
