import Mathlib.Tactic.Common
import SuiteMigration.Proofs.Tree.LegacyCalls
import SuiteMigration.Tree.Transform

/-!
# What a transformer does throughout a tree

The recursion of a transformer reaches every expression of a tree, and only the four actions of the
transformer decide what comes out. If each of them turns a node that meets a first condition
throughout, with parts that meet a second one already, into nodes that meet the second condition,
then so does the whole recursion.

Next to the condition, the recursion keeps what a call around an expression depends on: an
expression stays alike, and a closure keeps the trivia at its end.

## Main definitions

* `Yields` - a condition on the result of an action, whatever the state
* `Expr.Rebuilt`, `Closure.Rebuilt` - what an expression and a closure are before their action
* `Transformer.Carries` - the law of a transformer

## Main results

* `Transformer.Carries.yields_statements` - a list of statements after the transformation
* `Transformer.Carries.yields_statement`, `Transformer.Carries.yields_block?` - one statement, and
  one body
-/

namespace SuiteMigration

variable {σ α β : Type}

/-! ### Conditions on results -/

/-- Whatever the state, the result of the action meets the condition. -/
def Yields (action : StateM σ α) (post : α → Prop) : Prop :=
  ∀ state, post (action state).1

namespace Yields

variable {action : StateM σ α} {next : α → StateM σ β} {post post' : α → Prop} {goal : β → Prop}

/-- A value given back at once is yielded. -/
theorem pure {value : α} (holds : post value) : Yields (Pure.pure value : StateM σ α) post :=
  fun _ => holds

/-- What a first action yields may be assumed of the second. -/
theorem bind (first : Yields action post)
    (second : ∀ value, post value → Yields (next value) goal) :
    Yields (action >>= next) goal :=
  fun state => second _ (first state) _

/-- The result of the first action does not matter. -/
theorem after (second : ∀ value, Yields (next value) goal) : Yields (action >>= next) goal :=
  fun _ => second _ _

/-- Two postconditions are met together. -/
theorem and (first : Yields action post) (second : Yields action post') :
    Yields action fun value => post value ∧ post' value :=
  fun state => ⟨first state, second state⟩

/-- A weaker postcondition is met as well. -/
theorem mono (yields : Yields action post) (weaker : ∀ value, post value → post' value) :
    Yields action post' :=
  fun state => weaker _ (yields state)

end Yields

/-- The patterns of a declaration stay, and so do the names that they bind. -/
theorem yields_bindingNames (t : Transformer σ) (bindings : List PatternBinding) :
    Yields (transformBindings t bindings) fun new => bindingNames new = bindingNames bindings := by
  induction bindings with
  | nil => exact .pure rfl
  | cons binding later ih =>
    obtain ⟨pattern, type, initializer, accessor, comma⟩ := binding
    refine .after fun _ => .after fun _ => ih.bind fun _ same => .pure ?_
    simp only [bindingNames, List.flatMap_cons] at same ⊢
    rw [same]

/-! ### The law of a transformer -/

/-- The condition holds throughout the parts of the new expression, and the new expression is like
the old one. -/
structure Expr.Rebuilt (q : Expr → Prop) (old new : Expr) : Prop where
  parts : Throughout q (new.walk .everywhere).tail
  alike : old.Alike new
  calls : old.CallsAlike new

/-- The condition holds throughout the new arguments, which end like the old ones. -/
structure ArgumentList.Rebuilt (q : Expr → Prop) (old new : ArgumentList) : Prop where
  visits : Throughout q (new.walk .everywhere)
  ending : endTrivia new.tokens = endTrivia old.tokens

/-- The condition holds throughout the new arguments, which are like the old ones. -/
structure CallArguments.Rebuilt (q : Expr → Prop) (old new : CallArguments) : Prop where
  visits : Throughout q (new.walk .everywhere)
  alike : old.Alike new
  ending : endTrivia new.tokens = endTrivia old.tokens

/-- The condition holds throughout the new closure, and the trivia after it are the old ones. -/
structure Closure.Rebuilt (q : Expr → Prop) (old new : Closure) : Prop where
  visits : Throughout q (new.walk .everywhere)
  ending : new.rightBrace.trailing = old.rightBrace.trailing

/-- The four actions of the transformer lead from the first condition to the second. Each is given a
node that meets the first one throughout, and an action that makes the parts of the node meet the
second. -/
structure Transformer.Carries (t : Transformer σ) (p q : Expr → Prop) : Prop where
  expr : ∀ expr parts, Throughout p (expr.walk .everywhere) → Yields parts (expr.Rebuilt q) →
    Yields (t.expr expr parts) fun new => Throughout q (new.walk .everywhere) ∧ expr.Alike new
  closure : ∀ closure parts, Throughout p (closure.walk .everywhere) →
    Yields parts (closure.Rebuilt q) → Yields (t.closure closure parts) (closure.Rebuilt q)
  decl : ∀ decl parts, Throughout p (decl.walk .everywhere) →
    Yields parts (fun new => Throughout q (new.walk .everywhere)) →
    Yields (t.decl decl parts) fun new => Throughout q (new.walk .everywhere)
  statement : ∀ statement parts, Throughout p (statement.walk .everywhere) →
    Yields parts (fun new => Throughout q (new.walk .everywhere)) →
    Yields (t.statement statement parts) fun new =>
      Throughout q (walkStatements .everywhere new)

/-- A transformer that does nothing with statements keeps each as the only one in its place. -/
theorem Yields.singleton {q : Expr → Prop} {parts : StateM σ Statement}
    (yields : Yields parts fun new => Throughout q (new.walk .everywhere)) :
    Yields (return [← parts]) fun new => Throughout q (walkStatements .everywhere new) :=
  yields.bind fun _ visits => .pure (by simpa [walkStatements] using visits)

/-! ### The trivia at the end of rebuilt nodes -/

/-- An argument list ends in the trivia behind its closing parenthesis. -/
theorem ArgumentList.endTrivia_tokens (list : ArgumentList) :
    endTrivia list.tokens = some list.closer.trailing := by
  cases list
  simp [ArgumentList.tokens]

/-- A closure ends in the trivia behind its closing brace. -/
theorem Closure.endTrivia_tokens (closure : Closure) :
    endTrivia closure.tokens = some closure.rightBrace.trailing := by
  cases closure
  simp [Closure.tokens]

/-- A rebuilt closure ends in the same trivia. -/
theorem Closure.Rebuilt.endTrivia_eq {q : Expr → Prop} {old new : Closure}
    (rebuilt : old.Rebuilt q new) : endTrivia new.tokens = endTrivia old.tokens := by
  rw [Closure.endTrivia_tokens, Closure.endTrivia_tokens, rebuilt.ending]

/-- An expression that is no name and not empty is alike if it ends alike. -/
theorem Expr.Alike.ofEnding {old new : Expr} (name : new.name? = none)
    (isEmpty : new.isEmpty = old.isEmpty)
    (ending : endTrivia new.tokens = endTrivia old.tokens) : old.Alike new :=
  { isEmpty, ending, name := fun _ _ named => by simp [name] at named }

/-- A property of calls is kept where the transformer only rebuilds an expression. -/
theorem Yields.throughout_of_rebuilt {p : Expr → Prop} (law : CallProperty p) {expr : Expr}
    {parts : StateM σ Expr} (yields : Yields parts (expr.Rebuilt p))
    (visits : Throughout p (expr.walk .everywhere)) :
    Yields parts fun new => Throughout p (new.walk .everywhere) ∧ expr.Alike new := by
  refine yields.mono fun new rebuilt => ⟨?_, rebuilt.alike⟩
  rw [throughout_walk] at visits ⊢
  exact ⟨law.alike expr new rebuilt.calls visits.1, rebuilt.parts⟩

/-! ### The recursion -/

namespace Transformer.Carries

variable {t : Transformer σ} {p q : Expr → Prop}

-- The induction follows the transformer. The first condition is taken apart on the way down, and
-- the second one is put together on the way up.
mutual

/-- A transformer that carries a property through the visits does so for every expression. -/
theorem yields_expr (laws : t.Carries p q) (expr : Expr)
    (visits : Throughout p (expr.walk .everywhere)) :
    Yields (expr.transform t) fun new =>
      Throughout q (new.walk .everywhere) ∧ expr.Alike new := by
  rw [Expr.transform.eq_def]
  refine laws.expr expr _ visits ?_
  have parts := (throughout_walk.1 visits).2
  -- Each case rebuilds the parts that are expressions, and the last part says what trivia the node
  -- ends in.
  match expr, parts with
  | .identifier token, _ | .literal token, _ | .raw tokens, _ =>
    exact .pure ⟨by simp [Expr.walk], .refl _, trivial⟩
  | .member base period name, parts =>
    refine (laws.yields_expr? base parts).bind fun newBase visits => .pure ⟨visits, ?_, trivial⟩
    exact .ofEnding rfl rfl (by simp [Expr.tokens])
  | .call callee arguments closure, parts =>
    simp only [Expr.walk, List.tail_cons, throughout_append] at parts
    refine (laws.yields_expr callee parts.1.1).bind fun newCallee calleeNew =>
      (laws.yields_callArguments arguments parts.1.2).bind fun newArguments argumentsNew =>
      (laws.yields_closure? closure parts.2).bind fun newClosure closureNew => .pure ⟨?_, ?_, ?_⟩
    · simp [Expr.walk, calleeNew.1, argumentsNew.visits, closureNew.1]
    · exact .ofEnding rfl rfl (by simp [Expr.tokens, calleeNew.2.ending, argumentsNew.ending,
        closureNew.2.1])
    · exact fun _ =>
        ⟨callee, arguments, closure, rfl, calleeNew.2, argumentsNew.alike, closureNew.2.2⟩
  | .index base arguments, parts =>
    simp only [Expr.walk, List.tail_cons, throughout_append] at parts
    refine (laws.yields_expr base parts.1).bind fun newBase baseNew =>
      (laws.yields_argumentList arguments parts.2).bind fun newArguments argumentsNew =>
      .pure ⟨?_, ?_, trivial⟩
    · simp [Expr.walk, baseNew.1, argumentsNew.visits]
    · exact .ofEnding rfl rfl (by simp [Expr.tokens, baseNew.2.ending, argumentsNew.ending])
  | .sequence operands operators, parts =>
    exact (laws.yields_operands operands parts).bind fun newOperands new =>
      .pure ⟨new.1, .ofEnding rfl rfl (new.2 operators), trivial⟩
  | .prefixed operator operand, parts =>
    refine (laws.yields_expr operand parts).bind fun newOperand new => .pure ⟨new.1, ?_, trivial⟩
    exact .ofEnding rfl rfl (by simp [Expr.tokens, new.2.ending])
  | .suffixed operand operator, parts =>
    refine (laws.yields_expr operand parts).bind fun newOperand new => .pure ⟨new.1, ?_, trivial⟩
    exact .ofEnding rfl rfl (by simp [Expr.tokens])
  | .trying keyword mark operand, parts =>
    refine (laws.yields_expr operand parts).bind fun newOperand new => .pure ⟨new.1, ?_, trivial⟩
    exact .ofEnding rfl rfl (by simp [Expr.tokens, new.2.ending])
  | .awaiting keyword operand, parts =>
    refine (laws.yields_expr operand parts).bind fun newOperand new => .pure ⟨new.1, ?_, trivial⟩
    exact .ofEnding rfl rfl (by simp [Expr.tokens, new.2.ending])
  | .tuple elements, parts =>
    exact (laws.yields_argumentList elements parts).bind fun newElements new =>
      .pure ⟨new.visits, .ofEnding rfl rfl new.ending, trivial⟩
  | .collection left elements right, parts =>
    refine (laws.yields_elements elements parts).bind fun newElements visits =>
      .pure ⟨visits, ?_, trivial⟩
    exact .ofEnding rfl rfl (by simp [Expr.tokens])
  | .closure closure, parts =>
    exact (laws.yields_closure closure parts).bind fun newClosure new =>
      .pure ⟨new.visits, .ofEnding rfl rfl new.endTrivia_eq, trivial⟩
  | .specialized base arguments, parts =>
    refine (laws.yields_expr base parts).bind fun newBase new => .pure ⟨new.1, ?_, trivial⟩
    exact .ofEnding rfl rfl (by simp [Expr.tokens, new.2.ending])

theorem yields_expr? (laws : t.Carries p q) (expr : Option Expr)
    (visits : Throughout p (walkExpr? .everywhere expr)) :
    Yields (transformExpr? t expr) fun new => Throughout q (walkExpr? .everywhere new) := by
  match expr, visits with
  | none, _ => exact .pure throughout_nil
  | some expr, visits => exact (laws.yields_expr expr visits).bind fun _ new => .pure new.1

theorem yields_argumentList (laws : t.Carries p q) (list : ArgumentList)
    (visits : Throughout p (list.walk .everywhere)) :
    Yields (list.transform t) (list.Rebuilt q) := by
  match list, visits with
  | ⟨opener, arguments, closer⟩, visits =>
    refine (laws.yields_arguments arguments visits).bind fun newArguments new => .pure ⟨new.1, ?_⟩
    simp [ArgumentList.endTrivia_tokens]

theorem yields_callArguments (laws : t.Carries p q) (list : CallArguments)
    (visits : Throughout p (list.walk .everywhere)) :
    Yields (list.transform t) (list.Rebuilt q) := by
  match list, visits with
  | ⟨left, arguments, right⟩, visits =>
    refine (laws.yields_arguments arguments visits).bind fun newArguments new =>
      .pure ⟨new.1, ⟨rfl, new.2.1⟩, ?_⟩
    simp [CallArguments.tokens, new.2.2]

theorem yields_arguments (laws : t.Carries p q) (arguments : List Argument)
    (visits : Throughout p (walkArguments .everywhere arguments)) :
    Yields (transformArguments t arguments) fun new =>
      Throughout q (walkArguments .everywhere new) ∧
        List.Forall₂ Argument.Alike arguments new ∧
        endTrivia (tokensOfArguments new) = endTrivia (tokensOfArguments arguments) := by
  match arguments, visits with
  | [], _ => exact .pure ⟨throughout_nil, .nil, rfl⟩
  | ⟨label, value, comma⟩ :: later, visits =>
    simp only [walkArguments, throughout_append] at visits
    refine (laws.yields_expr value visits.1).bind fun newValue new =>
      (laws.yields_arguments later visits.2).bind fun newLater laterNew => .pure ⟨?_, ?_, ?_⟩
    · simp [walkArguments, new.1, laterNew.1]
    · exact .cons ⟨rfl, new.2⟩ laterNew.2.1
    · simp [tokensOfArguments, Argument.tokens, new.2.ending, laterNew.2.2]

theorem yields_operands (laws : t.Carries p q) (operands : List Expr)
    (visits : Throughout p (walkOperands .everywhere operands)) :
    Yields (transformOperands t operands) fun new =>
      Throughout q (walkOperands .everywhere new) ∧
        ∀ operators, endTrivia (tokensOfOperands new operators) =
          endTrivia (tokensOfOperands operands operators) := by
  match operands, visits with
  | [], _ => exact .pure ⟨throughout_nil, fun _ => rfl⟩
  | operand :: later, visits =>
    simp only [walkOperands, throughout_append] at visits
    refine (laws.yields_expr operand visits.1).bind fun newOperand new =>
      (laws.yields_operands later visits.2).bind fun newLater laterNew =>
      .pure ⟨?_, fun operators => ?_⟩
    · simp [walkOperands, new.1, laterNew.1]
    · simp [tokensOfOperands, new.2.ending, laterNew.2]

theorem yields_elements (laws : t.Carries p q) (elements : List CollectionElement)
    (visits : Throughout p (walkElements .everywhere elements)) :
    Yields (transformElements t elements) fun new =>
      Throughout q (walkElements .everywhere new) := by
  match elements, visits with
  | [], _ => exact .pure throughout_nil
  | .value value comma :: later, visits =>
    simp only [walkElements, throughout_append] at visits
    refine (laws.yields_expr value visits.1).bind fun newValue new =>
      (laws.yields_elements later visits.2).bind fun newLater laterNew => .pure ?_
    simp [walkElements, new.1, laterNew]
  | .entry key colon value comma :: later, visits =>
    simp only [walkElements, throughout_append] at visits
    refine (laws.yields_expr key visits.1.1).bind fun newKey keyNew =>
      (laws.yields_expr value visits.1.2).bind fun newValue new =>
      (laws.yields_elements later visits.2).bind fun newLater laterNew => .pure ?_
    simp [walkElements, keyNew.1, new.1, laterNew]

theorem yields_closure (laws : t.Carries p q) (closure : Closure)
    (visits : Throughout p (closure.walk .everywhere)) :
    Yields (closure.transform t) (closure.Rebuilt q) := by
  match closure, visits with
  | ⟨left, signature, statements, right⟩, visits =>
    refine laws.closure _ _ visits ?_
    simp only [Closure.walk, throughout_closure, throughout_binds] at visits
    refine (laws.yields_statements statements visits).bind fun newStatements new => .pure ⟨?_, rfl⟩
    simpa [Closure.walk] using new

theorem yields_closure? (laws : t.Carries p q) (closure : Option Closure)
    (visits : Throughout p (walkClosure? .everywhere closure)) :
    Yields (transformClosure? t closure) fun new =>
      Throughout q (walkClosure? .everywhere new) ∧
        endTrivia (tokensOfClosure? new) = endTrivia (tokensOfClosure? closure) ∧
        new.isSome = closure.isSome := by
  match closure, visits with
  | none, _ => exact .pure ⟨throughout_nil, rfl, rfl⟩
  | some closure, visits =>
    exact (laws.yields_closure closure visits).bind fun _ new =>
      .pure ⟨new.visits, new.endTrivia_eq, rfl⟩

theorem yields_statement (laws : t.Carries p q) (statement : Statement)
    (visits : Throughout p (statement.walk .everywhere)) :
    Yields (statement.transform t) fun new => Throughout q (new.walk .everywhere) := by
  match statement, visits with
  | ⟨item, semicolon⟩, visits =>
    exact (laws.yields_item item visits).bind fun _ new => .pure new

/-- A transformer that carries a property through the visits does so for every statement list. -/
theorem yields_statements (laws : t.Carries p q) (statements : List Statement)
    (visits : Throughout p (walkStatements .everywhere statements)) :
    Yields (transformStatements t statements) fun new =>
      Throughout q (walkStatements .everywhere new) := by
  match statements, visits with
  | [], _ => exact .pure throughout_nil
  | statement :: later, visits =>
    simp only [walkStatements, throughout_append] at visits
    have expanded := laws.statement statement _ visits.1 (laws.yields_statement statement visits.1)
    refine expanded.bind fun newStatements new =>
      (laws.yields_statements later visits.2).bind fun newLater laterNew => .pure ?_
    rw [throughout_statements] at new laterNew ⊢
    exact List.forall_mem_append.2 ⟨new, laterNew⟩

theorem yields_item (laws : t.Carries p q) (item : Item)
    (visits : Throughout p (item.walk .everywhere)) :
    Yields (item.transform t) fun new => Throughout q (new.walk .everywhere) := by
  match item, visits with
  | .expr expr, visits => exact (laws.yields_expr expr visits).bind fun _ new => .pure new.1
  | .decl decl, visits => exact (laws.yields_decl decl visits).bind fun _ new => .pure new
  | .returning keyword value, visits =>
    exact (laws.yields_expr? value visits).bind fun _ new => .pure new
  | .throwing keyword value, visits =>
    exact (laws.yields_expr value visits).bind fun _ new => .pure new.1
  | .conditional statement, visits =>
    exact (laws.yields_ifStatement statement visits).bind fun _ new => .pure new
  | .guarding keyword conditions elseKeyword body, visits =>
    simp only [Item.walk, throughout_append] at visits
    refine (laws.yields_conditions conditions visits.1).bind fun _ conditionsNew =>
      (laws.yields_block body visits.2).bind fun _ bodyNew => .pure ?_
    simp [Item.walk, conditionsNew, bodyNew]
  | .forIn keyword modifiers pattern type inKeyword sequence filter body, visits =>
    simp only [Item.walk, List.cons_append, throughout_binds, throughout_append] at visits
    refine (laws.yields_expr sequence visits.1.1).bind fun _ sequenceNew => .after fun _ =>
      (laws.yields_clause? filter visits.1.2).bind fun _ filterNew =>
      (laws.yields_block body visits.2).bind fun _ bodyNew => .after fun _ => .pure ?_
    simp [Item.walk, sequenceNew.1, filterNew, bodyNew]
  | .whileLoop keyword conditions body, visits =>
    simp only [Item.walk, throughout_append] at visits
    refine .after fun _ => (laws.yields_conditions conditions visits.1).bind fun _ conditionsNew =>
      (laws.yields_block body visits.2).bind fun _ bodyNew => .after fun _ => .pure ?_
    simp [Item.walk, conditionsNew, bodyNew]
  | .repeatLoop keyword body whileKeyword condition, visits =>
    simp only [Item.walk, throughout_append] at visits
    refine (laws.yields_block body visits.1).bind fun _ bodyNew =>
      (laws.yields_expr condition visits.2).bind fun _ conditionNew => .pure ?_
    simp [Item.walk, bodyNew, conditionNew.1]
  | .doCatch keyword throwsClause body catches, visits =>
    simp only [Item.walk, throughout_append] at visits
    refine (laws.yields_block body visits.1).bind fun _ bodyNew =>
      (laws.yields_catches catches visits.2).bind fun _ catchesNew => .pure ?_
    simp [Item.walk, bodyNew, catchesNew]
  | .switching keyword subject left cases right, visits =>
    simp only [Item.walk, throughout_append] at visits
    refine (laws.yields_expr subject visits.1).bind fun _ subjectNew =>
      (laws.yields_cases cases visits.2).bind fun _ casesNew => .pure ?_
    simp [Item.walk, subjectNew.1, casesNew]
  | .deferring keyword body, visits =>
    exact (laws.yields_block body visits).bind fun _ new => .pure new
  | .raw tokens, _ => exact .pure throughout_nil

theorem yields_block (laws : t.Carries p q) (block : CodeBlock)
    (visits : Throughout p (block.walk .everywhere)) :
    Yields (block.transform t) fun new => Throughout q (new.walk .everywhere) := by
  match block, visits with
  | ⟨left, statements, right⟩, visits =>
    exact .after fun _ => (laws.yields_statements statements visits).bind fun _ new =>
      .after fun _ => .pure new

theorem yields_block? (laws : t.Carries p q) (block : Option CodeBlock)
    (visits : Throughout p (walkBlock? .everywhere block)) :
    Yields (transformBlock? t block) fun new => Throughout q (walkBlock? .everywhere new) := by
  match block, visits with
  | none, _ => exact .pure throughout_nil
  | some block, visits => exact (laws.yields_block block visits).bind fun _ new => .pure new

theorem yields_ifStatement (laws : t.Carries p q) (statement : IfStatement)
    (visits : Throughout p (statement.walk .everywhere)) :
    Yields (statement.transform t) fun new => Throughout q (new.walk .everywhere) := by
  match statement, visits with
  | ⟨keyword, conditions, body, alternative⟩, visits =>
    simp only [IfStatement.walk, throughout_append] at visits
    refine .after fun _ =>
      (laws.yields_conditions conditions visits.1.1).bind fun _ conditionsNew =>
      (laws.yields_block body visits.1.2).bind fun _ bodyNew => .after fun _ =>
      (laws.yields_elseClause alternative visits.2).bind fun _ alternativeNew => .pure ?_
    simp [IfStatement.walk, conditionsNew, bodyNew, alternativeNew]

theorem yields_elseClause (laws : t.Carries p q) (alternative : ElseClause)
    (visits : Throughout p (alternative.walk .everywhere)) :
    Yields (alternative.transform t) fun new => Throughout q (new.walk .everywhere) := by
  match alternative, visits with
  | .absent, _ => exact .pure throughout_nil
  | .block keyword body, visits =>
    exact (laws.yields_block body visits).bind fun _ new => .pure new
  | .chained keyword next, visits =>
    exact (laws.yields_ifStatement next visits).bind fun _ new => .pure new

theorem yields_conditions (laws : t.Carries p q) (conditions : List Condition)
    (visits : Throughout p (walkConditions .everywhere conditions)) :
    Yields (transformConditions t conditions) fun new =>
      Throughout q (walkConditions .everywhere new) := by
  match conditions, visits with
  | [], _ => exact .pure throughout_nil
  | .expr expr comma :: later, visits =>
    simp only [walkConditions, throughout_append] at visits
    refine (laws.yields_expr expr visits.1).bind fun _ new =>
      (laws.yields_conditions later visits.2).bind fun _ laterNew => .pure ?_
    simp [walkConditions, new.1, laterNew]
  | .binding specifier pattern type initializer comma :: later, visits =>
    simp only [walkConditions, throughout_append, throughout_binds] at visits
    refine (laws.yields_clause? initializer visits.1).bind fun _ new => .after fun _ =>
      (laws.yields_conditions later visits.2).bind fun _ laterNew => .pure ?_
    simp [walkConditions, new, laterNew]

theorem yields_clause (laws : t.Carries p q) (clause : Clause)
    (visits : Throughout p (clause.walk .everywhere)) :
    Yields (clause.transform t) fun new => Throughout q (new.walk .everywhere) := by
  match clause, visits with
  | ⟨mark, value⟩, visits => exact (laws.yields_expr value visits).bind fun _ new => .pure new.1

theorem yields_clause? (laws : t.Carries p q) (clause : Option Clause)
    (visits : Throughout p (walkClause? .everywhere clause)) :
    Yields (transformClause? t clause) fun new => Throughout q (walkClause? .everywhere new) := by
  match clause, visits with
  | none, _ => exact .pure throughout_nil
  | some clause, visits => exact (laws.yields_clause clause visits).bind fun _ new => .pure new

theorem yields_catches (laws : t.Carries p q) (catches : List CatchClause)
    (visits : Throughout p (walkCatches .everywhere catches)) :
    Yields (transformCatches t catches) fun new =>
      Throughout q (walkCatches .everywhere new) := by
  match catches, visits with
  | [], _ => exact .pure throughout_nil
  | ⟨keyword, pattern, body⟩ :: later, visits =>
    simp only [walkCatches, throughout_append] at visits
    refine .after fun _ => (laws.yields_block body visits.1).bind fun _ bodyNew => .after fun _ =>
      (laws.yields_catches later visits.2).bind fun _ laterNew => .pure ?_
    simp [walkCatches, bodyNew, laterNew]

theorem yields_cases (laws : t.Carries p q) (cases : List SwitchCase)
    (visits : Throughout p (walkCases .everywhere cases)) :
    Yields (transformCases t cases) fun new => Throughout q (walkCases .everywhere new) := by
  match cases, visits with
  | [], _ => exact .pure throughout_nil
  | ⟨label, statements⟩ :: later, visits =>
    simp only [walkCases, throughout_append] at visits
    refine (laws.yields_statements statements visits.1).bind fun _ statementsNew =>
      (laws.yields_cases later visits.2).bind fun _ laterNew => .pure ?_
    simp [walkCases, statementsNew, laterNew]

theorem yields_decl (laws : t.Carries p q) (decl : Decl)
    (visits : Throughout p (decl.walk .everywhere)) :
    Yields (decl.transform t) fun new => Throughout q (new.walk .everywhere) := by
  rw [Decl.transform.eq_def]
  refine laws.decl decl _ visits ?_
  match decl, visits with
  | .importing decl, _ | .raw decl, _ => exact .pure (by simp [Decl.walk])
  | .type header members, visits =>
    refine (laws.yields_block members (by simpa [Decl.walk] using visits)).bind fun _ new =>
      .pure ?_
    simpa [Decl.walk] using new
  | .function header body, visits | .initializer header body, visits
  | .finalizer header body, visits =>
    refine (laws.yields_block? body (by simpa [Decl.walk] using visits)).bind fun _ new => .pure ?_
    simpa [Decl.walk] using new
  | .variable header bindings, visits =>
    refine (laws.yields_bindings bindings (by simpa [Decl.walk] using visits)).bind fun _ new =>
      .pure ?_
    simpa [Decl.walk] using new

theorem yields_bindings (laws : t.Carries p q) (bindings : List PatternBinding)
    (visits : Throughout p (walkBindings .everywhere bindings)) :
    Yields (transformBindings t bindings) fun new =>
      Throughout q (walkBindings .everywhere new) := by
  match bindings, visits with
  | [], _ => exact .pure throughout_nil
  | ⟨pattern, type, initializer, accessor, comma⟩ :: later, visits =>
    simp only [walkBindings, throughout_append] at visits
    refine (laws.yields_clause? initializer visits.1.1).bind fun _ initializerNew =>
      (laws.yields_block? accessor visits.1.2).bind fun _ accessorNew =>
      (laws.yields_bindings later visits.2).bind fun _ laterNew => .pure ?_
    simp [walkBindings, initializerNew, accessorNew, laterNew]

end

end Transformer.Carries

end SuiteMigration
