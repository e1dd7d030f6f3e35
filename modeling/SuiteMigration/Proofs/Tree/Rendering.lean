import Mathlib.Tactic.Common
import SuiteMigration.Proofs.Tree.Shapes
import SuiteMigration.Proofs.Tree.Visits

/-!
# What a sound tree renders

A sequence holds its operands and its operators apart. Its tokens take one operator behind each
operand, so that operators without an operand in front of them would be lost. In a sound tree there
are none: wherever a walk meets a sequence, all its tokens are rendered.

## Main definitions

* `Expr.RendersOperators` - the tokens of a sequence are those of its operands and its operators

## Main results

* `SourceFile.throughout_rendersOperators` - the sequences of a sound file lose no token
-/

namespace SuiteMigration

/-- If the expression is a sequence, its tokens are those of its operands and its operators, each as
often as it is there. -/
def Expr.RendersOperators : Expr → Prop
  | .sequence operands operators =>
    (Expr.sequence operands operators).tokens.Perm (operands.flatMap Expr.tokens ++ operators)
  | _ => True

/-- With an operand for each operator all tokens of both are rendered. -/
theorem perm_tokensOfOperands {operands : List Expr} {operators : List Token}
    (enough : operators.length ≤ operands.length) :
    (tokensOfOperands operands operators).Perm (operands.flatMap Expr.tokens ++ operators) := by
  induction operands generalizing operators with
  | nil => simp_all [tokensOfOperands]
  | cons operand later ih =>
    simp only [tokensOfOperands, List.flatMap_cons, List.append_assoc]
    refine List.Perm.append_left _ ?_
    cases operators with
    | nil => exact ih (by simp)
    | cons operator others =>
      have rest := ih (by simpa using enough : others.length ≤ later.length)
      exact (rest.cons operator).trans List.perm_middle.symm

/-- An expression of sound shapes renders all its operators. -/
theorem Expr.rendersOperators_of_sound {expr : Expr} (sound : Sound expr.shapes) :
    expr.RendersOperators := by
  cases expr with
  | sequence operands operators =>
    simp only [Expr.shapes, sound_cons] at sound
    exact perm_tokensOfOperands (by have := sound.1.2; omega)
  | _ => trivial

/-! ### Parts of sound trees -/

-- The induction follows the walk, which enters a node as its shapes do.
mutual

/-- In an expression of sound shapes every expression has sound shapes. -/
theorem Expr.throughout_sound (expr : Expr) (sound : Sound expr.shapes) :
    Throughout (fun part => Sound part.shapes) (expr.walk .everywhere) := by
  rw [throughout_walk]
  refine ⟨sound, ?_⟩
  match expr with
  | .identifier _ | .literal _ | .raw _ => simp [Expr.walk]
  | .member base period name =>
    simpa [Expr.walk] using throughout_sound_expr? base sound
  | .call callee arguments closure =>
    simp only [Expr.shapes, sound_cons, sound_append] at sound
    obtain ⟨-, ⟨calleeSound, argumentsSound⟩, closureSound⟩ := sound
    simp [Expr.walk, callee.throughout_sound calleeSound,
      arguments.throughout_sound argumentsSound, throughout_sound_closure? closure closureSound]
  | .index base arguments =>
    simp only [Expr.shapes, sound_append] at sound
    simp [Expr.walk, base.throughout_sound sound.1, arguments.throughout_sound sound.2]
  | .sequence operands operators =>
    simp only [Expr.shapes, sound_cons] at sound
    simpa [Expr.walk] using throughout_sound_operands operands sound.2
  | .prefixed operator operand => simpa [Expr.walk] using operand.throughout_sound sound
  | .suffixed operand operator => simpa [Expr.walk] using operand.throughout_sound sound
  | .trying keyword mark operand => simpa [Expr.walk] using operand.throughout_sound sound
  | .awaiting keyword operand => simpa [Expr.walk] using operand.throughout_sound sound
  | .tuple elements => simpa [Expr.walk] using elements.throughout_sound sound
  | .collection left elements right =>
    simp only [Expr.shapes, sound_cons] at sound
    simpa [Expr.walk] using throughout_sound_elements elements sound.2
  | .closure closure => simpa [Expr.walk] using closure.throughout_sound sound
  | .specialized base arguments => simpa [Expr.walk] using base.throughout_sound sound

theorem throughout_sound_expr? (expr : Option Expr) (sound : Sound (shapesOfExpr? expr)) :
    Throughout (fun part => Sound part.shapes) (walkExpr? .everywhere expr) := by
  match expr with
  | none => simp [walkExpr?]
  | some expr => exact expr.throughout_sound sound

theorem ArgumentList.throughout_sound (list : ArgumentList) (sound : Sound list.shapes) :
    Throughout (fun part => Sound part.shapes) (list.walk .everywhere) := by
  match list with
  | ⟨opener, arguments, closer⟩ =>
    simp only [ArgumentList.shapes, sound_cons] at sound
    simpa [ArgumentList.walk] using throughout_sound_arguments arguments sound.2

theorem CallArguments.throughout_sound (list : CallArguments) (sound : Sound list.shapes) :
    Throughout (fun part => Sound part.shapes) (list.walk .everywhere) := by
  match list with
  | ⟨left, arguments, right⟩ =>
    simp only [CallArguments.shapes, sound_cons] at sound
    simpa [CallArguments.walk] using throughout_sound_arguments arguments sound.2

theorem throughout_sound_arguments (arguments : List Argument)
    (sound : Sound (shapesOfArguments arguments)) :
    Throughout (fun part => Sound part.shapes) (walkArguments .everywhere arguments) := by
  match arguments with
  | [] => simp [walkArguments]
  | ⟨label, value, comma⟩ :: later =>
    simp only [shapesOfArguments, sound_append] at sound
    simp [walkArguments, value.throughout_sound sound.1, throughout_sound_arguments later sound.2]

theorem throughout_sound_operands (operands : List Expr)
    (sound : Sound (shapesOfOperands operands)) :
    Throughout (fun part => Sound part.shapes) (walkOperands .everywhere operands) := by
  match operands with
  | [] => simp [walkOperands]
  | operand :: later =>
    simp only [shapesOfOperands, sound_append] at sound
    simp [walkOperands, operand.throughout_sound sound.1, throughout_sound_operands later sound.2]

theorem throughout_sound_elements (elements : List CollectionElement)
    (sound : Sound (shapesOfElements elements)) :
    Throughout (fun part => Sound part.shapes) (walkElements .everywhere elements) := by
  match elements with
  | [] => simp [walkElements]
  | .value value comma :: later =>
    simp only [shapesOfElements, sound_append] at sound
    simp [walkElements, value.throughout_sound sound.1, throughout_sound_elements later sound.2]
  | .entry key colon value comma :: later =>
    simp only [shapesOfElements, sound_append] at sound
    simp [walkElements, key.throughout_sound sound.1.1, value.throughout_sound sound.1.2,
      throughout_sound_elements later sound.2]

theorem Closure.throughout_sound (closure : Closure) (sound : Sound closure.shapes) :
    Throughout (fun part => Sound part.shapes) (closure.walk .everywhere) := by
  match closure with
  | ⟨left, signature, statements, right⟩ =>
    simpa [Closure.walk] using throughout_sound_statements statements sound

theorem throughout_sound_closure? (closure : Option Closure)
    (sound : Sound (shapesOfClosure? closure)) :
    Throughout (fun part => Sound part.shapes) (walkClosure? .everywhere closure) := by
  match closure with
  | none => simp [walkClosure?]
  | some closure => exact closure.throughout_sound sound

theorem Statement.throughout_sound (statement : Statement) (sound : Sound statement.shapes) :
    Throughout (fun part => Sound part.shapes) (statement.walk .everywhere) := by
  match statement with
  | ⟨item, semicolon⟩ => exact item.throughout_sound sound

/-- In statements of sound shapes every expression has sound shapes. -/
theorem throughout_sound_statements (statements : List Statement)
    (sound : Sound (shapesOfStatements statements)) :
    Throughout (fun part => Sound part.shapes) (walkStatements .everywhere statements) := by
  match statements with
  | [] => simp [walkStatements]
  | statement :: later =>
    simp only [shapesOfStatements, sound_append] at sound
    simp [walkStatements, statement.throughout_sound sound.1,
      throughout_sound_statements later sound.2]

theorem Item.throughout_sound (item : Item) (sound : Sound item.shapes) :
    Throughout (fun part => Sound part.shapes) (item.walk .everywhere) := by
  match item with
  | .expr expr => exact expr.throughout_sound sound
  | .decl decl => exact decl.throughout_sound sound
  | .returning keyword value => exact throughout_sound_expr? value sound
  | .throwing keyword value => exact value.throughout_sound sound
  | .conditional statement => exact statement.throughout_sound sound
  | .guarding keyword conditions elseKeyword body =>
    simp only [Item.shapes, sound_cons, sound_append] at sound
    simp [Item.walk, throughout_sound_conditions conditions sound.2.1,
      body.throughout_sound sound.2.2]
  | .forIn keyword modifiers pattern type inKeyword sequence filter body =>
    simp only [Item.shapes, sound_append] at sound
    simp [Item.walk, sequence.throughout_sound sound.1.1,
      throughout_sound_clause? filter sound.1.2, body.throughout_sound sound.2]
  | .whileLoop keyword conditions body =>
    simp only [Item.shapes, sound_cons, sound_append] at sound
    simp [Item.walk, throughout_sound_conditions conditions sound.2.1,
      body.throughout_sound sound.2.2]
  | .repeatLoop keyword body whileKeyword condition =>
    simp only [Item.shapes, sound_append] at sound
    simp [Item.walk, body.throughout_sound sound.1, condition.throughout_sound sound.2]
  | .doCatch keyword throwsClause body catches =>
    simp only [Item.shapes, sound_append] at sound
    simp [Item.walk, body.throughout_sound sound.1, throughout_sound_catches catches sound.2]
  | .switching keyword subject left cases right =>
    simp only [Item.shapes, sound_append] at sound
    simp [Item.walk, subject.throughout_sound sound.1, throughout_sound_cases cases sound.2]
  | .deferring keyword body => exact body.throughout_sound sound
  | .raw _ => simp [Item.walk]

theorem CodeBlock.throughout_sound (block : CodeBlock) (sound : Sound block.shapes) :
    Throughout (fun part => Sound part.shapes) (block.walk .everywhere) := by
  match block with
  | ⟨left, statements, right⟩ => exact throughout_sound_statements statements sound

theorem throughout_sound_block? (block : Option CodeBlock) (sound : Sound (shapesOfBlock? block)) :
    Throughout (fun part => Sound part.shapes) (walkBlock? .everywhere block) := by
  match block with
  | none => simp [walkBlock?]
  | some block => exact block.throughout_sound sound

theorem IfStatement.throughout_sound (statement : IfStatement) (sound : Sound statement.shapes) :
    Throughout (fun part => Sound part.shapes) (statement.walk .everywhere) := by
  match statement with
  | ⟨keyword, conditions, body, alternative⟩ =>
    simp only [IfStatement.shapes, sound_cons, sound_append] at sound
    obtain ⟨-, ⟨conditionsSound, bodySound⟩, alternativeSound⟩ := sound
    simp [IfStatement.walk, throughout_sound_conditions conditions conditionsSound,
      body.throughout_sound bodySound, alternative.throughout_sound alternativeSound]

theorem ElseClause.throughout_sound (alternative : ElseClause)
    (sound : Sound alternative.shapes) :
    Throughout (fun part => Sound part.shapes) (alternative.walk .everywhere) := by
  match alternative with
  | .absent => simp [ElseClause.walk]
  | .block keyword body => exact body.throughout_sound sound
  | .chained keyword next => exact next.throughout_sound sound

theorem throughout_sound_conditions (conditions : List Condition)
    (sound : Sound (shapesOfConditions conditions)) :
    Throughout (fun part => Sound part.shapes) (walkConditions .everywhere conditions) := by
  match conditions with
  | [] => simp [walkConditions]
  | .expr expr comma :: later =>
    simp only [shapesOfConditions, sound_append] at sound
    simp [walkConditions, expr.throughout_sound sound.1, throughout_sound_conditions later sound.2]
  | .binding keyword pattern type initializer comma :: later =>
    simp only [shapesOfConditions, sound_append] at sound
    simp [walkConditions, throughout_sound_clause? initializer sound.1,
      throughout_sound_conditions later sound.2]

theorem Clause.throughout_sound (clause : Clause) (sound : Sound clause.shapes) :
    Throughout (fun part => Sound part.shapes) (clause.walk .everywhere) := by
  match clause with
  | ⟨mark, value⟩ => exact value.throughout_sound sound

theorem throughout_sound_clause? (clause : Option Clause)
    (sound : Sound (shapesOfClause? clause)) :
    Throughout (fun part => Sound part.shapes) (walkClause? .everywhere clause) := by
  match clause with
  | none => simp [walkClause?]
  | some clause => exact clause.throughout_sound sound

theorem throughout_sound_catches (catches : List CatchClause)
    (sound : Sound (shapesOfCatches catches)) :
    Throughout (fun part => Sound part.shapes) (walkCatches .everywhere catches) := by
  match catches with
  | [] => simp [walkCatches]
  | ⟨keyword, pattern, body⟩ :: later =>
    simp only [shapesOfCatches, sound_append] at sound
    simp [walkCatches, body.throughout_sound sound.1, throughout_sound_catches later sound.2]

theorem throughout_sound_cases (cases : List SwitchCase) (sound : Sound (shapesOfCases cases)) :
    Throughout (fun part => Sound part.shapes) (walkCases .everywhere cases) := by
  match cases with
  | [] => simp [walkCases]
  | ⟨label, statements⟩ :: later =>
    simp only [shapesOfCases, sound_append] at sound
    simp [walkCases, throughout_sound_statements statements sound.1,
      throughout_sound_cases later sound.2]

theorem Decl.throughout_sound (decl : Decl) (sound : Sound decl.shapes) :
    Throughout (fun part => Sound part.shapes) (decl.walk .everywhere) := by
  match decl with
  | .importing _ | .raw _ => simp [Decl.walk]
  | .type header members =>
    simp only [Decl.shapes, sound_append] at sound
    simpa [Decl.walk] using members.throughout_sound sound.2
  | .function header body => simpa [Decl.walk] using throughout_sound_block? body sound
  | .variable header bindings =>
    simp only [Decl.shapes, sound_cons] at sound
    simpa [Decl.walk] using throughout_sound_bindings bindings sound.2
  | .initializer header body => simpa [Decl.walk] using throughout_sound_block? body sound
  | .finalizer header body => simpa [Decl.walk] using throughout_sound_block? body sound

theorem throughout_sound_bindings (bindings : List PatternBinding)
    (sound : Sound (shapesOfBindings bindings)) :
    Throughout (fun part => Sound part.shapes) (walkBindings .everywhere bindings) := by
  match bindings with
  | [] => simp [walkBindings]
  | ⟨pattern, type, initializer, accessor, comma⟩ :: later =>
    simp only [shapesOfBindings, sound_append] at sound
    simp [walkBindings, throughout_sound_clause? initializer sound.1.1,
      throughout_sound_block? accessor sound.1.2, throughout_sound_bindings later sound.2]

end

/-- In a sound file no sequence loses a token. -/
theorem SourceFile.throughout_rendersOperators {file : SourceFile} (sound : Sound file.shapes) :
    Throughout Expr.RendersOperators (walkStatements .everywhere file.statements) :=
  (throughout_sound_statements file.statements sound).mono fun _ partSound =>
    Expr.rendersOperators_of_sound partSound

end SuiteMigration
