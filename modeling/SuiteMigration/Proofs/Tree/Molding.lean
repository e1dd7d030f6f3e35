import Mathlib.Tactic.Common
import SuiteMigration.Proofs.Tree.Shapes

/-!
# Transformers that keep shapes sound

The recursion of a transformer rebuilds every list entry by entry and keeps the commas, the operators
and the parentheses as they are. So only the four actions of a transformer can make a shape unsound,
and if each keeps sound what is sound, the whole recursion does.

## Main definitions

* `Transformer.Molds` - the law of a transformer

## Main results

* `Transformer.Molds.yields_statements` - a list of statements after the transformation
* `Transformer.Molds.yields_statement`, `Transformer.Molds.yields_block?` - one statement, and one
  body
-/

namespace SuiteMigration

variable {σ : Type}

/-- Each action is given a sound node, and an action that makes a sound node of its parts. It makes
sound nodes itself. -/
structure Transformer.Molds (t : Transformer σ) : Prop where
  expr : ∀ expr parts, Sound expr.shapes → Yields parts (fun new => Sound new.shapes) →
    Yields (t.expr expr parts) fun new => Sound new.shapes
  closure : ∀ closure parts, Sound closure.shapes → Yields parts (fun new => Sound new.shapes) →
    Yields (t.closure closure parts) fun new => Sound new.shapes
  decl : ∀ decl parts, Sound decl.shapes → Yields parts (fun new => Sound new.shapes) →
    Yields (t.decl decl parts) fun new => Sound new.shapes
  statement : ∀ statement parts, Sound statement.shapes →
    Yields parts (fun new => Sound new.shapes) →
    Yields (t.statement statement parts) fun new => Sound (shapesOfStatements new)

/-- A transformer that does nothing with statements keeps each as the only one in its place. -/
theorem Yields.sound_singleton {parts : StateM σ Statement}
    (yields : Yields parts fun new => Sound new.shapes) :
    Yields (return [← parts]) fun new => Sound (shapesOfStatements new) :=
  yields.bind fun _ sound => .pure (by simpa [shapesOfStatements] using sound)

namespace Transformer.Molds

variable {t : Transformer σ}

-- The induction follows the transformer. A node is sound by its parts and its own shape, and its own
-- shape is the old one.
mutual

/-- A molding transformer makes well-formed expressions of well-formed ones. -/
theorem yields_expr (laws : t.Molds) (expr : Expr) (sound : Sound expr.shapes) :
    Yields (expr.transform t) fun new => Sound new.shapes := by
  rw [Expr.transform.eq_def]
  refine laws.expr expr _ sound ?_
  match expr, sound with
  | .identifier token, _ | .literal token, _ | .raw tokens, _ => exact .pure sound_nil
  | .member base period name, sound =>
    exact (laws.yields_expr? base sound).bind fun _ new => .pure new
  | .call callee arguments closure, sound =>
    simp only [Expr.shapes, sound_cons, sound_append] at sound
    obtain ⟨shape, ⟨calleeSound, argumentsSound⟩, closureSound⟩ := sound
    refine (laws.yields_expr callee calleeSound).bind fun _ calleeNew =>
      (laws.yields_callArguments arguments argumentsSound).bind fun _ argumentsNew =>
      (laws.yields_closure? closure closureSound).bind fun _ closureNew => .pure ?_
    simp only [Expr.shapes, sound_cons, sound_append]
    refine ⟨?_, ⟨calleeNew, argumentsNew.1⟩, closureNew.1⟩
    rw [argumentsNew.2, callShape, closureNew.2]
    exact shape
  | .index base arguments, sound =>
    simp only [Expr.shapes, sound_append] at sound
    refine (laws.yields_expr base sound.1).bind fun _ baseNew =>
      (laws.yields_argumentList arguments sound.2).bind fun _ new => .pure ?_
    simp only [Expr.shapes, sound_append]
    exact ⟨baseNew, new⟩
  | .sequence operands operators, sound =>
    simp only [Expr.shapes, sound_cons] at sound
    refine (laws.yields_operands operands sound.2).bind fun _ new => .pure ?_
    simp only [Expr.shapes, sound_cons, new.2]
    exact ⟨sound.1, new.1⟩
  | .prefixed _ operand, sound | .awaiting _ operand, sound | .suffixed operand _, sound
  | .specialized operand _, sound | .trying _ _ operand, sound =>
    exact (laws.yields_expr operand sound).bind fun _ new => .pure new
  | .tuple elements, sound =>
    exact (laws.yields_argumentList elements sound).bind fun _ new => .pure new
  | .collection left elements right, sound =>
    simp only [Expr.shapes, sound_cons] at sound
    refine (laws.yields_elements elements sound.2).bind fun _ new => .pure ?_
    simp only [Expr.shapes, sound_cons, new.2]
    exact ⟨sound.1, new.1⟩
  | .closure closure, sound =>
    exact (laws.yields_closure closure sound).bind fun _ new => .pure new

theorem yields_expr? (laws : t.Molds) (expr : Option Expr) (sound : Sound (shapesOfExpr? expr)) :
    Yields (transformExpr? t expr) fun new => Sound (shapesOfExpr? new) := by
  match expr, sound with
  | none, _ => exact .pure sound_nil
  | some expr, sound => exact (laws.yields_expr expr sound).bind fun _ new => .pure new

theorem yields_argumentList (laws : t.Molds) (list : ArgumentList) (sound : Sound list.shapes) :
    Yields (list.transform t) fun new => Sound new.shapes := by
  match list, sound with
  | ⟨opener, arguments, closer⟩, sound =>
    simp only [ArgumentList.shapes, sound_cons] at sound
    refine (laws.yields_arguments arguments sound.2).bind fun _ new => .pure ?_
    simp only [ArgumentList.shapes, sound_cons, new.2]
    exact ⟨sound.1, new.1⟩

theorem yields_callArguments (laws : t.Molds) (list : CallArguments) (sound : Sound list.shapes) :
    Yields (list.transform t) fun new =>
      Sound new.shapes ∧ ∀ closure, callShape new closure = callShape list closure := by
  match list, sound with
  | ⟨left, arguments, right⟩, sound =>
    simp only [CallArguments.shapes, sound_cons] at sound
    refine (laws.yields_arguments arguments sound.2).bind fun _ new => .pure ⟨?_, fun closure => ?_⟩
    · simp only [CallArguments.shapes, sound_cons, new.2]
      exact ⟨sound.1, new.1⟩
    · have length_eq := congrArg List.length new.2
      simp only [List.length_map] at length_eq
      simp only [callShape, length_eq]

theorem yields_arguments (laws : t.Molds) (arguments : List Argument)
    (sound : Sound (shapesOfArguments arguments)) :
    Yields (transformArguments t arguments) fun new =>
      Sound (shapesOfArguments new) ∧
        new.map Argument.hasComma = arguments.map Argument.hasComma := by
  match arguments, sound with
  | [], _ => exact .pure ⟨sound_nil, rfl⟩
  | ⟨label, value, comma⟩ :: later, sound =>
    simp only [shapesOfArguments, sound_append] at sound
    refine (laws.yields_expr value sound.1).bind fun _ valueNew =>
      (laws.yields_arguments later sound.2).bind fun _ laterNew => .pure ⟨?_, ?_⟩
    · simp only [shapesOfArguments, sound_append]
      exact ⟨valueNew, laterNew.1⟩
    · simp [Argument.hasComma, laterNew.2]

theorem yields_operands (laws : t.Molds) (operands : List Expr)
    (sound : Sound (shapesOfOperands operands)) :
    Yields (transformOperands t operands) fun new =>
      Sound (shapesOfOperands new) ∧ new.length = operands.length := by
  match operands, sound with
  | [], _ => exact .pure ⟨sound_nil, rfl⟩
  | operand :: later, sound =>
    simp only [shapesOfOperands, sound_append] at sound
    refine (laws.yields_expr operand sound.1).bind fun _ operandNew =>
      (laws.yields_operands later sound.2).bind fun _ laterNew => .pure ⟨?_, ?_⟩
    · simp only [shapesOfOperands, sound_append]
      exact ⟨operandNew, laterNew.1⟩
    · simp [laterNew.2]

theorem yields_elements (laws : t.Molds) (elements : List CollectionElement)
    (sound : Sound (shapesOfElements elements)) :
    Yields (transformElements t elements) fun new =>
      Sound (shapesOfElements new) ∧
        new.map CollectionElement.hasComma = elements.map CollectionElement.hasComma := by
  match elements, sound with
  | [], _ => exact .pure ⟨sound_nil, rfl⟩
  | .value value comma :: later, sound =>
    simp only [shapesOfElements, sound_append] at sound
    refine (laws.yields_expr value sound.1).bind fun _ valueNew =>
      (laws.yields_elements later sound.2).bind fun _ laterNew => .pure ⟨?_, ?_⟩
    · simp only [shapesOfElements, sound_append]
      exact ⟨valueNew, laterNew.1⟩
    · simp [CollectionElement.hasComma, laterNew.2]
  | .entry key colon value comma :: later, sound =>
    simp only [shapesOfElements, sound_append] at sound
    refine (laws.yields_expr key sound.1.1).bind fun _ keyNew =>
      (laws.yields_expr value sound.1.2).bind fun _ valueNew =>
      (laws.yields_elements later sound.2).bind fun _ laterNew => .pure ⟨?_, ?_⟩
    · simp only [shapesOfElements, sound_append]
      exact ⟨⟨keyNew, valueNew⟩, laterNew.1⟩
    · simp [CollectionElement.hasComma, laterNew.2]

theorem yields_closure (laws : t.Molds) (closure : Closure) (sound : Sound closure.shapes) :
    Yields (closure.transform t) fun new => Sound new.shapes := by
  match closure, sound with
  | ⟨left, signature, statements, right⟩, sound =>
    refine laws.closure _ _ sound ?_
    exact (laws.yields_statements statements sound).bind fun _ new => .pure new

theorem yields_closure? (laws : t.Molds) (closure : Option Closure)
    (sound : Sound (shapesOfClosure? closure)) :
    Yields (transformClosure? t closure) fun new =>
      Sound (shapesOfClosure? new) ∧ new.isSome = closure.isSome := by
  match closure, sound with
  | none, _ => exact .pure ⟨sound_nil, rfl⟩
  | some closure, sound =>
    exact (laws.yields_closure closure sound).bind fun _ new => .pure ⟨new, rfl⟩

theorem yields_statement (laws : t.Molds) (statement : Statement)
    (sound : Sound statement.shapes) :
    Yields (statement.transform t) fun new => Sound new.shapes := by
  match statement, sound with
  | ⟨item, semicolon⟩, sound =>
    exact (laws.yields_item item sound).bind fun _ new => .pure new

/-- A molding transformer makes well-formed statement lists of well-formed ones. -/
theorem yields_statements (laws : t.Molds) (statements : List Statement)
    (sound : Sound (shapesOfStatements statements)) :
    Yields (transformStatements t statements) fun new => Sound (shapesOfStatements new) := by
  match statements, sound with
  | [], _ => exact .pure sound_nil
  | statement :: later, sound =>
    simp only [shapesOfStatements, sound_append] at sound
    have expanded := laws.statement statement _ sound.1 (laws.yields_statement statement sound.1)
    refine expanded.bind fun _ new => (laws.yields_statements later sound.2).bind fun _ laterNew =>
      .pure ?_
    rw [sound_statements] at new laterNew ⊢
    exact List.forall_mem_append.2 ⟨new, laterNew⟩

theorem yields_item (laws : t.Molds) (item : Item) (sound : Sound item.shapes) :
    Yields (item.transform t) fun new => Sound new.shapes := by
  match item, sound with
  | .expr expr, sound => exact (laws.yields_expr expr sound).bind fun _ new => .pure new
  | .decl decl, sound => exact (laws.yields_decl decl sound).bind fun _ new => .pure new
  | .returning keyword value, sound =>
    exact (laws.yields_expr? value sound).bind fun _ new => .pure new
  | .throwing keyword value, sound =>
    exact (laws.yields_expr value sound).bind fun _ new => .pure new
  | .conditional statement, sound =>
    exact (laws.yields_ifStatement statement sound).bind fun _ new => .pure new
  | .guarding keyword conditions elseKeyword body, sound =>
    simp only [Item.shapes, sound_cons, sound_append] at sound
    refine (laws.yields_conditions conditions sound.2.1).bind fun _ conditionsNew =>
      (laws.yields_block body sound.2.2).bind fun _ bodyNew => .pure ?_
    simp only [Item.shapes, sound_cons, sound_append, conditionsNew.2]
    exact ⟨sound.1, conditionsNew.1, bodyNew⟩
  | .forIn keyword modifiers pattern type inKeyword sequence filter body, sound =>
    simp only [Item.shapes, sound_append] at sound
    refine (laws.yields_expr sequence sound.1.1).bind fun _ sequenceNew => .after fun _ =>
      (laws.yields_clause? filter sound.1.2).bind fun _ filterNew =>
      (laws.yields_block body sound.2).bind fun _ bodyNew => .after fun _ => .pure ?_
    simp only [Item.shapes, sound_append]
    exact ⟨⟨sequenceNew, filterNew⟩, bodyNew⟩
  | .whileLoop keyword conditions body, sound =>
    simp only [Item.shapes, sound_cons, sound_append] at sound
    refine .after fun _ =>
      (laws.yields_conditions conditions sound.2.1).bind fun _ conditionsNew =>
      (laws.yields_block body sound.2.2).bind fun _ bodyNew => .after fun _ => .pure ?_
    simp only [Item.shapes, sound_cons, sound_append, conditionsNew.2]
    exact ⟨sound.1, conditionsNew.1, bodyNew⟩
  | .repeatLoop keyword body whileKeyword condition, sound =>
    simp only [Item.shapes, sound_append] at sound
    refine (laws.yields_block body sound.1).bind fun _ bodyNew =>
      (laws.yields_expr condition sound.2).bind fun _ conditionNew => .pure ?_
    simp only [Item.shapes, sound_append]
    exact ⟨bodyNew, conditionNew⟩
  | .doCatch keyword throwsClause body catches, sound =>
    simp only [Item.shapes, sound_append] at sound
    refine (laws.yields_block body sound.1).bind fun _ bodyNew =>
      (laws.yields_catches catches sound.2).bind fun _ catchesNew => .pure ?_
    simp only [Item.shapes, sound_append]
    exact ⟨bodyNew, catchesNew⟩
  | .switching keyword subject left cases right, sound =>
    simp only [Item.shapes, sound_append] at sound
    refine (laws.yields_expr subject sound.1).bind fun _ subjectNew =>
      (laws.yields_cases cases sound.2).bind fun _ casesNew => .pure ?_
    simp only [Item.shapes, sound_append]
    exact ⟨subjectNew, casesNew⟩
  | .deferring keyword body, sound =>
    exact (laws.yields_block body sound).bind fun _ new => .pure new
  | .raw tokens, _ => exact .pure sound_nil

theorem yields_block (laws : t.Molds) (block : CodeBlock) (sound : Sound block.shapes) :
    Yields (block.transform t) fun new => Sound new.shapes := by
  match block, sound with
  | ⟨left, statements, right⟩, sound =>
    exact .after fun _ => (laws.yields_statements statements sound).bind fun _ new =>
      .after fun _ => .pure new

theorem yields_block? (laws : t.Molds) (block : Option CodeBlock)
    (sound : Sound (shapesOfBlock? block)) :
    Yields (transformBlock? t block) fun new => Sound (shapesOfBlock? new) := by
  match block, sound with
  | none, _ => exact .pure sound_nil
  | some block, sound => exact (laws.yields_block block sound).bind fun _ new => .pure new

theorem yields_ifStatement (laws : t.Molds) (statement : IfStatement)
    (sound : Sound statement.shapes) :
    Yields (statement.transform t) fun new => Sound new.shapes := by
  match statement, sound with
  | ⟨keyword, conditions, body, alternative⟩, sound =>
    simp only [IfStatement.shapes, sound_cons, sound_append] at sound
    obtain ⟨shape, ⟨conditionsSound, bodySound⟩, alternativeSound⟩ := sound
    refine .after fun _ =>
      (laws.yields_conditions conditions conditionsSound).bind fun _ conditionsNew =>
      (laws.yields_block body bodySound).bind fun _ bodyNew => .after fun _ =>
      (laws.yields_elseClause alternative alternativeSound).bind fun _ alternativeNew => .pure ?_
    simp only [IfStatement.shapes, sound_cons, sound_append, conditionsNew.2]
    exact ⟨shape, ⟨conditionsNew.1, bodyNew⟩, alternativeNew⟩

theorem yields_elseClause (laws : t.Molds) (alternative : ElseClause)
    (sound : Sound alternative.shapes) :
    Yields (alternative.transform t) fun new => Sound new.shapes := by
  match alternative, sound with
  | .absent, _ => exact .pure sound_nil
  | .block keyword body, sound => exact (laws.yields_block body sound).bind fun _ new => .pure new
  | .chained keyword next, sound =>
    exact (laws.yields_ifStatement next sound).bind fun _ new => .pure new

theorem yields_conditions (laws : t.Molds) (conditions : List Condition)
    (sound : Sound (shapesOfConditions conditions)) :
    Yields (transformConditions t conditions) fun new =>
      Sound (shapesOfConditions new) ∧
        new.map Condition.hasComma = conditions.map Condition.hasComma := by
  match conditions, sound with
  | [], _ => exact .pure ⟨sound_nil, rfl⟩
  | .expr expr comma :: later, sound =>
    simp only [shapesOfConditions, sound_append] at sound
    refine (laws.yields_expr expr sound.1).bind fun _ exprNew =>
      (laws.yields_conditions later sound.2).bind fun _ laterNew => .pure ⟨?_, ?_⟩
    · simp only [shapesOfConditions, sound_append]
      exact ⟨exprNew, laterNew.1⟩
    · simp [Condition.hasComma, laterNew.2]
  | .binding specifier pattern type initializer comma :: later, sound =>
    simp only [shapesOfConditions, sound_append] at sound
    refine (laws.yields_clause? initializer sound.1).bind fun _ initializerNew => .after fun _ =>
      (laws.yields_conditions later sound.2).bind fun _ laterNew => .pure ⟨?_, ?_⟩
    · simp only [shapesOfConditions, sound_append]
      exact ⟨initializerNew, laterNew.1⟩
    · simp [Condition.hasComma, laterNew.2]

theorem yields_clause (laws : t.Molds) (clause : Clause) (sound : Sound clause.shapes) :
    Yields (clause.transform t) fun new => Sound new.shapes := by
  match clause, sound with
  | ⟨mark, value⟩, sound => exact (laws.yields_expr value sound).bind fun _ new => .pure new

theorem yields_clause? (laws : t.Molds) (clause : Option Clause)
    (sound : Sound (shapesOfClause? clause)) :
    Yields (transformClause? t clause) fun new => Sound (shapesOfClause? new) := by
  match clause, sound with
  | none, _ => exact .pure sound_nil
  | some clause, sound => exact (laws.yields_clause clause sound).bind fun _ new => .pure new

theorem yields_catches (laws : t.Molds) (catches : List CatchClause)
    (sound : Sound (shapesOfCatches catches)) :
    Yields (transformCatches t catches) fun new => Sound (shapesOfCatches new) := by
  match catches, sound with
  | [], _ => exact .pure sound_nil
  | ⟨keyword, pattern, body⟩ :: later, sound =>
    simp only [shapesOfCatches, sound_append] at sound
    refine .after fun _ => (laws.yields_block body sound.1).bind fun _ bodyNew => .after fun _ =>
      (laws.yields_catches later sound.2).bind fun _ laterNew => .pure ?_
    simp only [shapesOfCatches, sound_append]
    exact ⟨bodyNew, laterNew⟩

theorem yields_cases (laws : t.Molds) (cases : List SwitchCase)
    (sound : Sound (shapesOfCases cases)) :
    Yields (transformCases t cases) fun new => Sound (shapesOfCases new) := by
  match cases, sound with
  | [], _ => exact .pure sound_nil
  | ⟨label, statements⟩ :: later, sound =>
    simp only [shapesOfCases, sound_append] at sound
    refine (laws.yields_statements statements sound.1).bind fun _ statementsNew =>
      (laws.yields_cases later sound.2).bind fun _ laterNew => .pure ?_
    simp only [shapesOfCases, sound_append]
    exact ⟨statementsNew, laterNew⟩

theorem yields_decl (laws : t.Molds) (decl : Decl) (sound : Sound decl.shapes) :
    Yields (decl.transform t) fun new => Sound new.shapes := by
  rw [Decl.transform.eq_def]
  refine laws.decl decl _ sound ?_
  match decl, sound with
  | .importing decl, _ | .raw decl, _ => exact .pure sound_nil
  | .type header members, sound =>
    simp only [Decl.shapes, sound_append] at sound
    refine (laws.yields_block members sound.2).bind fun _ new => .pure ?_
    simp only [Decl.shapes, sound_append]
    exact ⟨sound.1, new⟩
  | .function header body, sound | .initializer header body, sound
  | .finalizer header body, sound =>
    exact (laws.yields_block? body sound).bind fun _ new => .pure new
  | .variable header bindings, sound =>
    simp only [Decl.shapes, sound_cons] at sound
    refine (laws.yields_bindings bindings sound.2).bind fun _ new => .pure ?_
    simp only [Decl.shapes, sound_cons, new.2]
    exact ⟨sound.1, new.1⟩

theorem yields_bindings (laws : t.Molds) (bindings : List PatternBinding)
    (sound : Sound (shapesOfBindings bindings)) :
    Yields (transformBindings t bindings) fun new =>
      Sound (shapesOfBindings new) ∧
        new.map PatternBinding.hasComma = bindings.map PatternBinding.hasComma := by
  match bindings, sound with
  | [], _ => exact .pure ⟨sound_nil, rfl⟩
  | ⟨pattern, type, initializer, accessor, comma⟩ :: later, sound =>
    simp only [shapesOfBindings, sound_append] at sound
    refine (laws.yields_clause? initializer sound.1.1).bind fun _ initializerNew =>
      (laws.yields_block? accessor sound.1.2).bind fun _ accessorNew =>
      (laws.yields_bindings later sound.2).bind fun _ laterNew => .pure ⟨?_, ?_⟩
    · simp only [shapesOfBindings, sound_append]
      exact ⟨⟨initializerNew, accessorNew⟩, laterNew.1⟩
    · simp [PatternBinding.hasComma, laterNew.2]

end

end Transformer.Molds

end SuiteMigration
