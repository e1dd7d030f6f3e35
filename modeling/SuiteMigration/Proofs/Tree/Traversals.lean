import Mathlib.Data.List.Basic
import Mathlib.Tactic.Common
import SuiteMigration.Tree.Transform
import SuiteMigration.Tree.Walk

/-!
# Walks and transformations meet the same expressions

An analysis walks through a tree, and a rewrite transforms it. The two recursions are written
separately, so each has to come by the same expressions in the same order, or an analysis and a
rewrite would see different code. A transformer that only watches shows that they do: it gives every
tree back, and what its state has seen are the expressions met on the walk through all bodies.

## Main definitions

* `expressionsMet` - the expressions met on a walk
* `Transformer.OnlyWatches` - a transformer that changes nothing and looks at every expression
* `Transformer.noting` - the transformer that lists the expressions it comes by

## Main results

* `Transformer.OnlyWatches.watches_statements` - a list of statements
* `transform_meets_walk` - both recursions over the statements of a file
-/

namespace SuiteMigration

/-! ### The expressions of a walk -/

/-- The expressions met on a walk, in the order in which they are met. -/
def expressionsMet (visits : List Visit) : List Expr :=
  visits.filterMap fun
    | .expr expr => some expr
    | _ => none

section Met

variable {first second visits : List Visit}

@[simp] theorem expressionsMet_nil : expressionsMet [] = [] := rfl

/-- The expressions met along two walks are met along the first, then along the second. -/
@[simp] theorem expressionsMet_append :
    expressionsMet (first ++ second) = expressionsMet first ++ expressionsMet second :=
  List.filterMap_append

@[simp] theorem expressionsMet_expr (expr : Expr) :
    expressionsMet (.expr expr :: visits) = expr :: expressionsMet visits := rfl

@[simp] theorem expressionsMet_closure (closure : Closure) :
    expressionsMet (.closure closure :: visits) = expressionsMet visits := rfl

@[simp] theorem expressionsMet_decl (decl : Decl) :
    expressionsMet (.decl decl :: visits) = expressionsMet visits := rfl

@[simp] theorem expressionsMet_binds (names : List String) :
    expressionsMet (.binds names :: visits) = expressionsMet visits := rfl

end Met

/-! ### Actions that only watch -/

/-- The action gives the node back, and the state has seen the expressions met on the walk, one
after the other. -/
def Watches (see : Expr → σ → σ) (action : StateM σ α) (node : α) (visits : List Visit) : Prop :=
  ∀ state, action state =
    (node, (expressionsMet visits).foldl (fun state expr => see expr state) state)

namespace Watches

variable {σ α β : Type} {see : Expr → σ → σ} {action : StateM σ α} {next : α → StateM σ β}
  {node : α} {result : β} {visits later : List Visit}

/-- A node given back at once meets nothing. -/
theorem pure : Watches see (Pure.pure node) node [] :=
  fun _ => rfl

/-- Two watching actions in a row meet what the first meets, then what the second does. -/
theorem bind (first : Watches see action node visits)
    (second : Watches see (next node) result later) :
    Watches see (action >>= next) result (visits ++ later) := by
  intro state
  show next (action state).1 (action state).2 = _
  rw [first state, expressionsMet_append, List.foldl_append]
  exact second _

/-- The parts are put together again. -/
theorem map {make : α → β} (watches : Watches see action node visits) :
    Watches see (action >>= fun part => Pure.pure (make part)) (make node) visits := by
  have built : Watches see (Pure.pure (make node)) (make node) [] := pure
  have both : Watches see (action >>= fun part => Pure.pure (make part)) (make node)
      (visits ++ []) := watches.bind built
  rwa [List.append_nil] at both

/-- The state is left as it is before the action. -/
theorem after {change : σ → σ} (still : ∀ state, change state = state)
    (watches : Watches see action node visits) :
    Watches see (modify change >>= fun _ => action) node visits := by
  intro state
  show action (change state) = _
  rw [still, watches state]

/-- Only the expressions on a walk matter. -/
theorem of_met (watches : Watches see action node visits)
    (same : expressionsMet visits = expressionsMet later) : Watches see action node later := by
  intro state
  rw [watches state, same]

end Watches

/-- The transformer rebuilds every node as it was, and its state changes only when it comes by an
expression. -/
structure Transformer.OnlyWatches (t : Transformer σ) (see : Expr → σ → σ) : Prop where
  expr : ∀ expr parts state, t.expr expr parts state = parts (see expr state)
  closure : ∀ closure parts, t.closure closure parts = parts
  decl : ∀ decl parts, t.decl decl parts = parts
  statement : ∀ statement parts, t.statement statement parts = do return [← parts]
  enter : ∀ names state, t.enter names state = state
  leave : ∀ state, t.leave state = state
  bind : ∀ names state, t.bind names state = state

/-! ### The recursions side by side -/

namespace Transformer.OnlyWatches

variable {σ α : Type} {t : Transformer σ} {see : Expr → σ → σ}

/-- Scopes that open and close leave the state as it is, and so do names that are bound. -/
theorem entering (laws : t.OnlyWatches see) {names : List String} {action : StateM σ α} {node : α}
    {visits : List Visit} (watches : Watches see action node visits) :
    Watches see (modify (t.enter names) >>= fun _ => action) node visits :=
  watches.after (laws.enter names)

/-- Leaving a scope is no visit. -/
theorem leaving (laws : t.OnlyWatches see) {action : StateM σ α} {node : α}
    {visits : List Visit} (watches : Watches see action node visits) :
    Watches see (modify t.leave >>= fun _ => action) node visits :=
  watches.after laws.leave

/-- Entering a scope that binds names is no visit to an expression. -/
theorem binding (laws : t.OnlyWatches see) {names : List String} {action : StateM σ α} {node : α}
    {visits : List Visit} (watches : Watches see action node visits) :
    Watches see (modify (t.bind names) >>= fun _ => action) node visits :=
  watches.after (laws.bind names)

/-- At an expression, the transformer sees the expression and then what its parts are. -/
theorem watches_node (laws : t.OnlyWatches see) {expr : Expr} {parts : StateM σ Expr}
    {visits : List Visit} (watches : Watches see parts expr visits) :
    Watches see (t.expr expr parts) expr (.expr expr :: visits) := by
  intro state
  rw [laws.expr, watches]
  rfl

-- The induction follows the tree. Each case names the parts of a node in the order in which the
-- transformer comes by them, and compares that with the order of the walk.
mutual

/-- A watching transformer gives every expression back, and sees what the walk meets in it. -/
theorem watches_expr (laws : t.OnlyWatches see) (expr : Expr) :
    Watches see (expr.transform t) expr (expr.walk .everywhere) := by
  rw [Expr.transform.eq_def, Expr.walk.eq_def]
  refine laws.watches_node ?_
  match expr with
  | .identifier _ | .literal _ | .raw _ => exact .pure
  | .member base _ _ => exact (laws.watches_expr? base).map
  | .call callee arguments closure =>
    refine ((laws.watches_expr callee).bind ((laws.watches_callArguments arguments).bind
      (laws.watches_closure? closure).map)).of_met ?_
    simp
  | .index base arguments =>
    exact (laws.watches_expr base).bind (laws.watches_argumentList arguments).map
  | .sequence operands _ => exact (laws.watches_operands operands).map
  | .prefixed _ operand | .suffixed operand _ | .trying _ _ operand | .awaiting _ operand =>
    exact (laws.watches_expr operand).map
  | .tuple elements => exact (laws.watches_argumentList elements).map
  | .collection _ elements _ => exact (laws.watches_elements elements).map
  | .closure closure => exact (laws.watches_closure closure).map
  | .specialized base _ => exact (laws.watches_expr base).map

theorem watches_expr? (laws : t.OnlyWatches see) (expr : Option Expr) :
    Watches see (transformExpr? t expr) expr (walkExpr? .everywhere expr) := by
  match expr with
  | none => exact .pure
  | some expr => exact (laws.watches_expr expr).map

theorem watches_argumentList (laws : t.OnlyWatches see) (list : ArgumentList) :
    Watches see (list.transform t) list (list.walk .everywhere) := by
  match list with
  | ⟨opener, arguments, closer⟩ => exact (laws.watches_arguments arguments).map

theorem watches_callArguments (laws : t.OnlyWatches see) (list : CallArguments) :
    Watches see (list.transform t) list (list.walk .everywhere) := by
  match list with
  | ⟨left, arguments, right⟩ => exact (laws.watches_arguments arguments).map

theorem watches_arguments (laws : t.OnlyWatches see) (arguments : List Argument) :
    Watches see (transformArguments t arguments) arguments
      (walkArguments .everywhere arguments) := by
  match arguments with
  | [] => exact .pure
  | ⟨label, value, comma⟩ :: later =>
    exact (laws.watches_expr value).bind (laws.watches_arguments later).map

theorem watches_operands (laws : t.OnlyWatches see) (operands : List Expr) :
    Watches see (transformOperands t operands) operands (walkOperands .everywhere operands) := by
  match operands with
  | [] => exact .pure
  | operand :: later => exact (laws.watches_expr operand).bind (laws.watches_operands later).map

theorem watches_elements (laws : t.OnlyWatches see) (elements : List CollectionElement) :
    Watches see (transformElements t elements) elements (walkElements .everywhere elements) := by
  match elements with
  | [] => exact .pure
  | .value value comma :: later =>
    exact (laws.watches_expr value).bind (laws.watches_elements later).map
  | .entry key colon value comma :: later =>
    refine ((laws.watches_expr key).bind ((laws.watches_expr value).bind
      (laws.watches_elements later).map)).of_met ?_
    simp [walkElements]

theorem watches_closure (laws : t.OnlyWatches see) (closure : Closure) :
    Watches see (closure.transform t) closure (closure.walk .everywhere) := by
  match closure with
  | ⟨left, signature, statements, right⟩ =>
    rw [Closure.transform, laws.closure]
    refine (laws.watches_statements statements).map.of_met ?_
    simp [Closure.walk]

theorem watches_closure? (laws : t.OnlyWatches see) (closure : Option Closure) :
    Watches see (transformClosure? t closure) closure (walkClosure? .everywhere closure) := by
  match closure with
  | none => exact .pure
  | some closure => exact (laws.watches_closure closure).map

theorem watches_statement (laws : t.OnlyWatches see) (statement : Statement) :
    Watches see (statement.transform t) statement (statement.walk .everywhere) := by
  match statement with
  | ⟨item, semicolon⟩ => exact (laws.watches_item item).map

/-- A watching transformer gives every statement list back, and sees what the walk meets in it. -/
theorem watches_statements (laws : t.OnlyWatches see) (statements : List Statement) :
    Watches see (transformStatements t statements) statements
      (walkStatements .everywhere statements) := by
  match statements with
  | [] => exact .pure
  | statement :: later =>
    rw [transformStatements, laws.statement]
    exact (laws.watches_statement statement).map.bind (laws.watches_statements later).map

theorem watches_item (laws : t.OnlyWatches see) (item : Item) :
    Watches see (item.transform t) item (item.walk .everywhere) := by
  match item with
  | .expr expr => exact (laws.watches_expr expr).map
  | .decl decl => exact (laws.watches_decl decl).map
  | .returning _ value => exact (laws.watches_expr? value).map
  | .throwing _ value => exact (laws.watches_expr value).map
  | .conditional statement => exact (laws.watches_ifStatement statement).map
  | .guarding _ conditions _ body =>
    exact (laws.watches_conditions conditions).bind (laws.watches_block body).map
  | .forIn _ _ _ _ _ sequence filter body =>
    refine ((laws.watches_expr sequence).bind (laws.entering
      ((laws.watches_clause? filter).bind ((laws.watches_block body).bind
        (laws.leaving .pure))))).of_met ?_
    simp [Item.walk]
  | .whileLoop _ conditions body =>
    refine (laws.entering ((laws.watches_conditions conditions).bind
      ((laws.watches_block body).bind (laws.leaving .pure)))).of_met ?_
    simp [Item.walk]
  | .repeatLoop _ body _ condition =>
    exact (laws.watches_block body).bind (laws.watches_expr condition).map
  | .doCatch _ _ body catches =>
    exact (laws.watches_block body).bind (laws.watches_catches catches).map
  | .switching _ subject _ cases _ =>
    exact (laws.watches_expr subject).bind (laws.watches_cases cases).map
  | .deferring _ body => exact (laws.watches_block body).map
  | .raw _ => exact .pure

theorem watches_block (laws : t.OnlyWatches see) (block : CodeBlock) :
    Watches see (block.transform t) block (block.walk .everywhere) := by
  match block with
  | ⟨left, statements, right⟩ =>
    refine (laws.entering ((laws.watches_statements statements).bind
      (laws.leaving .pure))).of_met ?_
    simp [CodeBlock.walk]

theorem watches_block? (laws : t.OnlyWatches see) (block : Option CodeBlock) :
    Watches see (transformBlock? t block) block (walkBlock? .everywhere block) := by
  match block with
  | none => exact .pure
  | some block => exact (laws.watches_block block).map

theorem watches_ifStatement (laws : t.OnlyWatches see) (statement : IfStatement) :
    Watches see (statement.transform t) statement (statement.walk .everywhere) := by
  match statement with
  | ⟨keyword, conditions, body, alternative⟩ =>
    refine (laws.entering ((laws.watches_conditions conditions).bind
      ((laws.watches_block body).bind (laws.leaving
        (laws.watches_elseClause alternative).map)))).of_met ?_
    simp [IfStatement.walk]

theorem watches_elseClause (laws : t.OnlyWatches see) (alternative : ElseClause) :
    Watches see (alternative.transform t) alternative (alternative.walk .everywhere) := by
  match alternative with
  | .absent => exact .pure
  | .block _ body => exact (laws.watches_block body).map
  | .chained _ next => exact (laws.watches_ifStatement next).map

theorem watches_conditions (laws : t.OnlyWatches see) (conditions : List Condition) :
    Watches see (transformConditions t conditions) conditions
      (walkConditions .everywhere conditions) := by
  match conditions with
  | [] => exact .pure
  | .expr expr comma :: later =>
    exact (laws.watches_expr expr).bind (laws.watches_conditions later).map
  | .binding specifier pattern type initializer comma :: later =>
    refine ((laws.watches_clause? initializer).bind (laws.binding
      (laws.watches_conditions later).map)).of_met ?_
    simp [walkConditions]

theorem watches_clause (laws : t.OnlyWatches see) (clause : Clause) :
    Watches see (clause.transform t) clause (clause.walk .everywhere) := by
  match clause with
  | ⟨mark, value⟩ => exact (laws.watches_expr value).map

theorem watches_clause? (laws : t.OnlyWatches see) (clause : Option Clause) :
    Watches see (transformClause? t clause) clause (walkClause? .everywhere clause) := by
  match clause with
  | none => exact .pure
  | some clause => exact (laws.watches_clause clause).map

theorem watches_catches (laws : t.OnlyWatches see) (catches : List CatchClause) :
    Watches see (transformCatches t catches) catches (walkCatches .everywhere catches) := by
  match catches with
  | [] => exact .pure
  | ⟨keyword, pattern, body⟩ :: later =>
    exact laws.entering ((laws.watches_block body).bind
      (laws.leaving (laws.watches_catches later).map))

theorem watches_cases (laws : t.OnlyWatches see) (cases : List SwitchCase) :
    Watches see (transformCases t cases) cases (walkCases .everywhere cases) := by
  match cases with
  | [] => exact .pure
  | ⟨label, statements⟩ :: later =>
    exact (laws.watches_statements statements).bind (laws.watches_cases later).map

theorem watches_decl (laws : t.OnlyWatches see) (decl : Decl) :
    Watches see (decl.transform t) decl (decl.walk .everywhere) := by
  rw [Decl.transform.eq_def, laws.decl]
  match decl with
  | .importing _ | .raw _ => exact .pure
  | .type header members =>
    exact (laws.watches_block members).map.of_met (by simp [Decl.walk])
  | .function header body | .initializer header body | .finalizer header body =>
    exact (laws.watches_block? body).map.of_met (by simp [Decl.walk])
  | .variable header bindings =>
    exact (laws.watches_bindings bindings).map.of_met (by simp [Decl.walk])

theorem watches_bindings (laws : t.OnlyWatches see) (bindings : List PatternBinding) :
    Watches see (transformBindings t bindings) bindings (walkBindings .everywhere bindings) := by
  match bindings with
  | [] => exact .pure
  | ⟨pattern, type, initializer, accessor, comma⟩ :: later =>
    refine ((laws.watches_clause? initializer).bind ((laws.watches_block? accessor).bind
      (laws.watches_bindings later).map)).of_met ?_
    simp [walkBindings]

end

/-- The statements of a file as a whole. -/
theorem transform_file (laws : t.OnlyWatches see) (file : SourceFile) (state : σ) :
    file.transform t state =
      (file, (expressionsMet (walkStatements .everywhere file.statements)).foldl
        (fun state expr => see expr state) state) :=
  (laws.watches_statements file.statements).map state

end Transformer.OnlyWatches

/-! ### Transformers that override nothing -/

/-- The transformer that changes nothing and lists the expressions it comes by. -/
def Transformer.noting : Transformer (List Expr) where
  expr expr parts := do
    modify (· ++ [expr])
    parts

/-- A transformer that writes down what it is shown only watches. -/
theorem Transformer.onlyWatches_noting :
    Transformer.noting.OnlyWatches fun expr noted => noted ++ [expr] where
  expr _ _ _ := rfl
  closure _ _ := rfl
  decl _ _ := rfl
  statement _ _ := rfl
  enter _ _ := rfl
  leave _ := rfl
  bind _ _ := rfl

/-- The transformer with no override only watches, and sees nothing. -/
theorem Transformer.onlyWatches_default (σ : Type) :
    ({} : Transformer σ).OnlyWatches fun _ state => state where
  expr _ _ _ := rfl
  closure _ _ := rfl
  decl _ _ := rfl
  statement _ _ := rfl
  enter _ _ := rfl
  leave _ := rfl
  bind _ _ := rfl

/-- Walks and transformations meet the same expressions. A transformer that overrides nothing gives
every file back and leaves its state alone, and if it lists the expressions that it comes by, the
list is that of the expressions met on the walk, in the same order. -/
theorem transform_meets_walk (file : SourceFile) :
    (∀ (σ : Type) (state : σ), file.transform {} state = (file, state)) ∧
      file.transform Transformer.noting [] =
        (file, expressionsMet (walkStatements .everywhere file.statements)) := by
  constructor
  · intro σ state
    rw [(Transformer.onlyWatches_default σ).transform_file, List.foldl_fixed]
  · rw [Transformer.onlyWatches_noting.transform_file, List.foldl_append_eq_append]
    simp [← List.flatMap_def]

end SuiteMigration
