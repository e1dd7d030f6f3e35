import Mathlib.Logic.Relation
import Mathlib.Tactic.Common
import SuiteMigration.Tree.Walk

/-!
# The places of a body

A body is made of places in which expressions can stand: statements and their conditions, blocks,
closures and the expressions themselves. Each place lists the places right in it, and reaches those
that stand in it at any depth. The bodies of declared functions and types are no places of the body
around them, nor is anything that is kept as a run of tokens.

A walk that stays inside one body meets the expressions that the body reaches, and no others.

## Main definitions

* `Place`, `Place.parts` - the places of a body, and the ones right in a place
* `Place.Reaches` - a place stands in another one, at any depth

## Main results

* `Place.Inductive.holds` - induction over places
* `Place.mem_walk_iff_reaches` - what a walk meets
-/

namespace SuiteMigration

/-- A place of a body in which expressions can stand. -/
inductive Place
  | expr (expr : Expr)
  | closure (closure : Closure)
  | block (block : CodeBlock)
  | item (item : Item)
  | conditional (statement : IfStatement)
  | condition (condition : Condition)

/-! ### The places in a place -/

/-- The values of some arguments. -/
def placesOfArguments (arguments : List Argument) : List Place :=
  arguments.map fun argument => .expr argument.value

/-- The places of some statements. -/
def placesOfStatements (statements : List Statement) : List Place :=
  statements.map fun statement => .item statement.item

/-- The place of the value behind a sign or keyword. -/
def placesOfClause? (clause : Option Clause) : List Place :=
  clause.toList.map fun clause => .expr clause.value

/-- The key and the value of an element of a collection. -/
def placesOfElement : CollectionElement → List Place
  | .value only _ => [.expr only]
  | .entry key _ value _ => [.expr key, .expr value]

/-- The initializer and the accessors of a variable. -/
def placesOfBinding (binding : PatternBinding) : List Place :=
  placesOfClause? binding.initializer ++ binding.accessor.toList.map .block

/-- The places right in an expression. -/
def placesOfExpr : Expr → List Place
  | .identifier _ | .literal _ | .raw _ => []
  | .member base _ _ => base.toList.map .expr
  | .call callee arguments closure =>
    .expr callee :: placesOfArguments arguments.arguments ++ closure.toList.map .closure
  | .index base list => .expr base :: placesOfArguments list.arguments
  | .sequence operands _ => operands.map .expr
  | .prefixed _ operand => [.expr operand]
  | .suffixed operand _ => [.expr operand]
  | .trying _ _ operand => [.expr operand]
  | .awaiting _ operand => [.expr operand]
  | .tuple list => placesOfArguments list.arguments
  | .collection _ elements _ => elements.flatMap placesOfElement
  | .closure closure => [.closure closure]
  | .specialized base _ => [.expr base]

/-- The places right in a statement. Only a declaration of variables has any. -/
def placesOfItem : Item → List Place
  | .expr expr => [.expr expr]
  | .decl (.variable _ bindings) => bindings.flatMap placesOfBinding
  | .decl _ => []
  | .returning _ value => value.toList.map .expr
  | .throwing _ value => [.expr value]
  | .conditional statement => [.conditional statement]
  | .guarding _ conditions _ body => conditions.map .condition ++ [.block body]
  | .forIn _ _ _ _ _ sequence filter body =>
    .expr sequence :: placesOfClause? filter ++ [.block body]
  | .whileLoop _ conditions body => conditions.map .condition ++ [.block body]
  | .repeatLoop _ body _ condition => [.block body, .expr condition]
  | .doCatch _ _ body catches => .block body :: catches.map fun clause => .block clause.body
  | .switching _ subject _ cases _ =>
    .expr subject :: cases.flatMap fun branch => placesOfStatements branch.statements
  | .deferring _ body => [.block body]
  | .raw _ => []

/-- The places behind the body of a conditional statement. -/
def placesOfElse : ElseClause → List Place
  | .absent => []
  | .block _ body => [.block body]
  | .chained _ next => [.conditional next]

/-- The places right in a place. -/
def Place.parts : Place → List Place
  | .expr inner => placesOfExpr inner
  | .closure inner => placesOfStatements inner.statements
  | .block inner => placesOfStatements inner.statements
  | .item inner => placesOfItem inner
  | .conditional inner =>
    inner.conditions.map .condition ++ .block inner.body :: placesOfElse inner.alternative
  | .condition (.expr inner _) => [.expr inner]
  | .condition (.binding _ _ _ initializer _) => placesOfClause? initializer

/-- A place stands in another one, at any depth. -/
def Place.Reaches : Place → Place → Prop :=
  Relation.ReflTransGen fun whole part => part ∈ whole.parts

/-! ### Induction over places -/

/-- The property holds of a place if it holds of the places right in it. -/
def Place.Inductive (p : Place → Prop) : Prop :=
  ∀ whole : Place, (∀ part ∈ whole.parts, p part) → p whole

namespace Place.Inductive

variable {p : Place → Prop}

-- The induction follows the tree. The places in a list or in an option are looked at together.
mutual

/-- What is shown of a place from the places in it holds of every expression. -/
theorem expr (step : Inductive p) (inner : Expr) : p (.expr inner) := by
  refine step _ ?_
  match inner with
  | .identifier _ | .literal _ | .raw _ => exact List.forall_mem_nil _
  | .member base _ _ => exact step.expr? base
  | .call callee ⟨_, arguments, _⟩ closure =>
    exact List.forall_mem_append.2
      ⟨List.forall_mem_cons.2 ⟨step.expr callee, step.arguments arguments⟩, step.closure? closure⟩
  | .index base ⟨_, arguments, _⟩ =>
    exact List.forall_mem_cons.2 ⟨step.expr base, step.arguments arguments⟩
  | .sequence operands _ => exact step.operands operands
  | .prefixed _ operand | .suffixed operand _ | .trying _ _ operand | .awaiting _ operand =>
    exact List.forall_mem_singleton.2 (step.expr operand)
  | .tuple ⟨_, arguments, _⟩ => exact step.arguments arguments
  | .collection _ elements _ => exact step.elements elements
  | .closure closure => exact List.forall_mem_singleton.2 (step.closure closure)
  | .specialized base _ => exact List.forall_mem_singleton.2 (step.expr base)

theorem expr? (step : Inductive p) (inner : Option Expr) :
    ∀ part ∈ inner.toList.map Place.expr, p part := by
  match inner with
  | none => exact List.forall_mem_nil _
  | some inner => exact List.forall_mem_singleton.2 (step.expr inner)

theorem arguments (step : Inductive p) (arguments : List Argument) :
    ∀ part ∈ placesOfArguments arguments, p part := by
  match arguments with
  | [] => exact List.forall_mem_nil _
  | ⟨_, value, _⟩ :: later =>
    exact List.forall_mem_cons.2 ⟨step.expr value, step.arguments later⟩

theorem operands (step : Inductive p) (operands : List Expr) :
    ∀ part ∈ operands.map Place.expr, p part := by
  match operands with
  | [] => exact List.forall_mem_nil _
  | operand :: later => exact List.forall_mem_cons.2 ⟨step.expr operand, step.operands later⟩

theorem elements (step : Inductive p) (elements : List CollectionElement) :
    ∀ part ∈ elements.flatMap placesOfElement, p part := by
  match elements with
  | [] => exact List.forall_mem_nil _
  | .value value _ :: later =>
    exact List.forall_mem_cons.2 ⟨step.expr value, step.elements later⟩
  | .entry key _ value _ :: later =>
    exact List.forall_mem_cons.2
      ⟨step.expr key, List.forall_mem_cons.2 ⟨step.expr value, step.elements later⟩⟩

theorem closure (step : Inductive p) (inner : Closure) : p (.closure inner) := by
  match inner with
  | ⟨_, _, statements, _⟩ => exact step _ (step.statements statements)

theorem closure? (step : Inductive p) (inner : Option Closure) :
    ∀ part ∈ inner.toList.map Place.closure, p part := by
  match inner with
  | none => exact List.forall_mem_nil _
  | some inner => exact List.forall_mem_singleton.2 (step.closure inner)

/-- And it holds of the places of all statements. -/
theorem statements (step : Inductive p) (statements : List Statement) :
    ∀ part ∈ placesOfStatements statements, p part := by
  match statements with
  | [] => exact List.forall_mem_nil _
  | ⟨item, _⟩ :: later => exact List.forall_mem_cons.2 ⟨step.item item, step.statements later⟩

theorem item (step : Inductive p) (inner : Item) : p (.item inner) := by
  refine step _ ?_
  match inner with
  | .expr inner => exact List.forall_mem_singleton.2 (step.expr inner)
  | .decl decl => exact step.decl decl
  | .returning _ value => exact step.expr? value
  | .throwing _ value => exact List.forall_mem_singleton.2 (step.expr value)
  | .conditional inner => exact List.forall_mem_singleton.2 (step.conditional inner)
  | .guarding _ conditions _ body | .whileLoop _ conditions body =>
    exact List.forall_mem_append.2
      ⟨step.conditions conditions, List.forall_mem_singleton.2 (step.block body)⟩
  | .forIn _ _ _ _ _ sequence filter body =>
    exact List.forall_mem_cons.2 ⟨step.expr sequence,
      List.forall_mem_append.2 ⟨step.clause? filter, List.forall_mem_singleton.2 (step.block body)⟩⟩
  | .repeatLoop _ body _ test =>
    exact List.forall_mem_cons.2 ⟨step.block body, List.forall_mem_singleton.2 (step.expr test)⟩
  | .doCatch _ _ body catches =>
    exact List.forall_mem_cons.2 ⟨step.block body, step.catches catches⟩
  | .switching _ subject _ cases _ =>
    exact List.forall_mem_cons.2 ⟨step.expr subject, step.cases cases⟩
  | .deferring _ body => exact List.forall_mem_singleton.2 (step.block body)
  | .raw _ => exact List.forall_mem_nil _

theorem block (step : Inductive p) (inner : CodeBlock) : p (.block inner) := by
  match inner with
  | ⟨_, statements, _⟩ => exact step _ (step.statements statements)

theorem block? (step : Inductive p) (inner : Option CodeBlock) :
    ∀ part ∈ inner.toList.map Place.block, p part := by
  match inner with
  | none => exact List.forall_mem_nil _
  | some inner => exact List.forall_mem_singleton.2 (step.block inner)

theorem conditional (step : Inductive p) (inner : IfStatement) : p (.conditional inner) := by
  match inner with
  | ⟨_, conditions, body, alternative⟩ =>
    refine step _ (List.forall_mem_append.2 ⟨step.conditions conditions, ?_⟩)
    exact List.forall_mem_cons.2 ⟨step.block body, step.elseClause alternative⟩

theorem elseClause (step : Inductive p) (alternative : ElseClause) :
    ∀ part ∈ placesOfElse alternative, p part := by
  match alternative with
  | .absent => exact List.forall_mem_nil _
  | .block _ body => exact List.forall_mem_singleton.2 (step.block body)
  | .chained _ next => exact List.forall_mem_singleton.2 (step.conditional next)

theorem conditions (step : Inductive p) (conditions : List Condition) :
    ∀ part ∈ conditions.map Place.condition, p part := by
  match conditions with
  | [] => exact List.forall_mem_nil _
  | .expr inner _ :: later =>
    exact List.forall_mem_cons.2
      ⟨step _ (List.forall_mem_singleton.2 (step.expr inner)), step.conditions later⟩
  | .binding _ _ _ initializer _ :: later =>
    exact List.forall_mem_cons.2 ⟨step _ (step.clause? initializer), step.conditions later⟩

theorem clause? (step : Inductive p) (clause : Option Clause) :
    ∀ part ∈ placesOfClause? clause, p part := by
  match clause with
  | none => exact List.forall_mem_nil _
  | some ⟨_, value⟩ => exact List.forall_mem_singleton.2 (step.expr value)

theorem catches (step : Inductive p) (catches : List CatchClause) :
    ∀ part ∈ catches.map fun clause => Place.block clause.body, p part := by
  match catches with
  | [] => exact List.forall_mem_nil _
  | ⟨_, _, body⟩ :: later => exact List.forall_mem_cons.2 ⟨step.block body, step.catches later⟩

theorem cases (step : Inductive p) (cases : List SwitchCase) :
    ∀ part ∈ cases.flatMap fun branch => placesOfStatements branch.statements, p part := by
  match cases with
  | [] => exact List.forall_mem_nil _
  | ⟨_, statements⟩ :: later =>
    exact List.forall_mem_append.2 ⟨step.statements statements, step.cases later⟩

theorem decl (step : Inductive p) (decl : Decl) :
    ∀ part ∈ placesOfItem (.decl decl), p part := by
  match decl with
  | .variable _ bindings => exact step.bindings bindings
  | .importing _ | .type _ _ | .function _ _ | .initializer _ _ | .finalizer _ _ | .raw _ =>
    exact List.forall_mem_nil _

theorem bindings (step : Inductive p) (bindings : List PatternBinding) :
    ∀ part ∈ bindings.flatMap placesOfBinding, p part := by
  match bindings with
  | [] => exact List.forall_mem_nil _
  | ⟨_, _, initializer, accessor, _⟩ :: later =>
    exact List.forall_mem_append.2
      ⟨List.forall_mem_append.2 ⟨step.clause? initializer, step.block? accessor⟩,
        step.bindings later⟩

end

/-- A property that is inherited from the places right in a place holds of all places. -/
theorem holds (step : Inductive p) (place : Place) : p place := by
  match place with
  | .expr inner => exact step.expr inner
  | .closure inner => exact step.closure inner
  | .block inner => exact step.block inner
  | .item inner => exact step.item inner
  | .conditional inner => exact step.conditional inner
  | .condition inner =>
    -- A condition is looked at as a list of one.
    exact step.conditions [inner] _ (List.mem_singleton.2 rfl)

end Place.Inductive

/-! ### Walking through places -/

/-- What is met on a walk through a place that stays inside one body. -/
def Place.walk : Place → List Visit
  | .expr inner => inner.walk .oneBody
  | .closure inner => inner.walk .oneBody
  | .block inner => inner.walk .oneBody
  | .item inner => inner.walk .oneBody
  | .conditional inner => inner.walk .oneBody
  | .condition inner => walkConditions .oneBody [inner]

/-- The expression is met on the walk through one of the places. -/
def MetIn (expr : Expr) (places : List Place) : Prop :=
  ∃ part ∈ places, Visit.expr expr ∈ part.walk

section MetIn

variable {expr : Expr}

@[simp] theorem metIn_nil : MetIn expr [] ↔ False := by
  simp [MetIn]

@[simp] theorem metIn_cons {part : Place} {later : List Place} :
    MetIn expr (part :: later) ↔ Visit.expr expr ∈ part.walk ∨ MetIn expr later := by
  simp [MetIn]

/-- An expression is met in places in a row if it is met in the first or in the later ones. -/
@[simp] theorem metIn_append {first second : List Place} :
    MetIn expr (first ++ second) ↔ MetIn expr first ∨ MetIn expr second := by
  simp only [MetIn, List.mem_append, or_and_right, exists_or]

theorem metIn_expr? (inner : Option Expr) :
    Visit.expr expr ∈ walkExpr? .oneBody inner ↔ MetIn expr (inner.toList.map .expr) := by
  cases inner <;> simp [walkExpr?, Place.walk]

/-- What a walk through arguments meets is met in their values. -/
theorem metIn_arguments (arguments : List Argument) :
    Visit.expr expr ∈ walkArguments .oneBody arguments ↔
      MetIn expr (placesOfArguments arguments) := by
  unfold placesOfArguments
  induction arguments with
  | nil => simp [walkArguments]
  | cons argument later ih =>
    obtain ⟨label, value, comma⟩ := argument
    simp [walkArguments, Place.walk, ih]

theorem metIn_argumentList (list : ArgumentList) :
    Visit.expr expr ∈ list.walk .oneBody ↔ MetIn expr (placesOfArguments list.arguments) := by
  obtain ⟨opener, arguments, closer⟩ := list
  exact metIn_arguments arguments

theorem metIn_callArguments (list : CallArguments) :
    Visit.expr expr ∈ list.walk .oneBody ↔ MetIn expr (placesOfArguments list.arguments) := by
  obtain ⟨left, arguments, right⟩ := list
  exact metIn_arguments arguments

theorem metIn_operands (operands : List Expr) :
    Visit.expr expr ∈ walkOperands .oneBody operands ↔ MetIn expr (operands.map .expr) := by
  induction operands with
  | nil => simp [walkOperands]
  | cons operand later ih => simp [walkOperands, Place.walk, ih]

theorem metIn_elements (elements : List CollectionElement) :
    Visit.expr expr ∈ walkElements .oneBody elements ↔
      MetIn expr (elements.flatMap placesOfElement) := by
  induction elements with
  | nil => simp [walkElements]
  | cons element later ih => cases element <;> simp [walkElements, placesOfElement, Place.walk, ih]

theorem metIn_closure? (closure : Option Closure) :
    Visit.expr expr ∈ walkClosure? .oneBody closure ↔
      MetIn expr (closure.toList.map .closure) := by
  cases closure <;> simp [walkClosure?, Place.walk]

/-- What a walk through statements meets is met in their places. -/
theorem metIn_statements (statements : List Statement) :
    Visit.expr expr ∈ walkStatements .oneBody statements ↔
      MetIn expr (placesOfStatements statements) := by
  unfold placesOfStatements
  induction statements with
  | nil => simp [walkStatements]
  | cons statement later ih =>
    obtain ⟨item, semicolon⟩ := statement
    simp [walkStatements, Statement.walk, Place.walk, ih]

theorem metIn_block? (block : Option CodeBlock) :
    Visit.expr expr ∈ walkBlock? .oneBody block ↔ MetIn expr (block.toList.map .block) := by
  cases block <;> simp [walkBlock?, Place.walk]

theorem metIn_clause? (clause : Option Clause) :
    Visit.expr expr ∈ walkClause? .oneBody clause ↔ MetIn expr (placesOfClause? clause) := by
  cases clause with
  | none => simp [walkClause?, placesOfClause?]
  | some clause =>
    obtain ⟨mark, value⟩ := clause
    simp [walkClause?, Clause.walk, placesOfClause?, Place.walk]

/-- What a walk through conditions meets is met in one of them. -/
theorem metIn_conditions (conditions : List Condition) :
    Visit.expr expr ∈ walkConditions .oneBody conditions ↔
      MetIn expr (conditions.map .condition) := by
  induction conditions with
  | nil => simp [walkConditions]
  | cons condition later ih =>
    cases condition <;> simp [walkConditions, Place.walk, ih]

theorem metIn_catches (catches : List CatchClause) :
    Visit.expr expr ∈ walkCatches .oneBody catches ↔
      MetIn expr (catches.map fun clause => .block clause.body) := by
  induction catches with
  | nil => simp [walkCatches]
  | cons clause later ih =>
    obtain ⟨keyword, pattern, body⟩ := clause
    simp [walkCatches, Place.walk, ih]

theorem metIn_cases (cases : List SwitchCase) :
    Visit.expr expr ∈ walkCases .oneBody cases ↔
      MetIn expr (cases.flatMap fun branch => placesOfStatements branch.statements) := by
  induction cases with
  | nil => simp [walkCases]
  | cons branch later ih =>
    obtain ⟨label, statements⟩ := branch
    simp [walkCases, metIn_statements, ih]

theorem metIn_bindings (bindings : List PatternBinding) :
    Visit.expr expr ∈ walkBindings .oneBody bindings ↔
      MetIn expr (bindings.flatMap placesOfBinding) := by
  induction bindings with
  | nil => simp [walkBindings]
  | cons binding later ih =>
    obtain ⟨pattern, type, initializer, accessor, comma⟩ := binding
    simp [walkBindings, placesOfBinding, metIn_clause?, metIn_block?, ih]

/-- What a walk through an alternative meets is met in its block or its chain. -/
theorem metIn_elseClause (alternative : ElseClause) :
    Visit.expr expr ∈ alternative.walk .oneBody ↔ MetIn expr (placesOfElse alternative) := by
  cases alternative <;> simp [ElseClause.walk, placesOfElse, Place.walk]

/-- A walk through an expression meets itself and what is met in its places. -/
theorem metIn_expr (inner : Expr) :
    Visit.expr expr ∈ inner.walk .oneBody ↔ inner = expr ∨ MetIn expr (placesOfExpr inner) := by
  rw [Expr.walk.eq_def, List.mem_cons, Visit.expr.injEq, eq_comm]
  refine or_congr_right ?_
  cases inner with
  | identifier | literal | raw => simp [placesOfExpr]
  | member base => exact metIn_expr? base
  | call callee list closure =>
    simp [placesOfExpr, Place.walk, metIn_callArguments, metIn_closure?]
  | index base list => simp [placesOfExpr, Place.walk, metIn_argumentList]
  | sequence operands operators => exact metIn_operands operands
  | tuple list => exact metIn_argumentList list
  | collection left elements right => exact metIn_elements elements
  | prefixed | suffixed | trying | awaiting | closure | specialized =>
    simp [placesOfExpr, Place.walk]

/-- A walk through a declaration meets what is met in its places. -/
theorem metIn_decl (decl : Decl) :
    Visit.expr expr ∈ decl.walk .oneBody ↔ MetIn expr (placesOfItem (.decl decl)) := by
  cases decl <;> simp [Decl.walk, placesOfItem, metIn_bindings]

/-- A walk through a statement meets what is met in its places. -/
theorem metIn_item (inner : Item) :
    Visit.expr expr ∈ inner.walk .oneBody ↔ MetIn expr (placesOfItem inner) := by
  cases inner with
  | decl decl => exact metIn_decl decl
  | returning keyword value => exact metIn_expr? value
  | guarding keyword conditions elseKeyword body =>
    simp [Item.walk, placesOfItem, Place.walk, metIn_conditions]
  | forIn keyword modifiers pattern type inKeyword sequence filter body =>
    simp [Item.walk, placesOfItem, Place.walk, metIn_clause?]
  | whileLoop keyword conditions body =>
    simp [Item.walk, placesOfItem, Place.walk, metIn_conditions]
  | doCatch keyword throwsClause body catches =>
    simp [Item.walk, placesOfItem, Place.walk, metIn_catches]
  | switching keyword subject left cases right =>
    simp [Item.walk, placesOfItem, Place.walk, metIn_cases]
  | expr | throwing | conditional | repeatLoop | deferring | raw =>
    simp [Item.walk, placesOfItem, Place.walk]

/-- An expression is met in a place just if it is what stands there or is met in a place right
in it. -/
theorem Place.mem_walk_iff (whole : Place) :
    Visit.expr expr ∈ whole.walk ↔ whole = .expr expr ∨ MetIn expr whole.parts := by
  cases whole with
  | expr inner => simpa [Place.walk, Place.parts] using metIn_expr inner
  | closure inner =>
    obtain ⟨left, signature, statements, right⟩ := inner
    simp [Place.walk, Closure.walk, Place.parts, metIn_statements]
  | block inner =>
    obtain ⟨left, statements, right⟩ := inner
    simp [Place.walk, CodeBlock.walk, Place.parts, metIn_statements]
  | item inner => simpa [Place.walk, Place.parts] using metIn_item inner
  | conditional inner =>
    obtain ⟨keyword, conditions, body, alternative⟩ := inner
    simp [Place.walk, IfStatement.walk, Place.parts, metIn_conditions, metIn_elseClause]
  | condition inner =>
    cases inner <;> simp [Place.walk, walkConditions, Place.parts, metIn_clause?]

/-- The expressions that are met in a place are those that stand there at some depth. -/
theorem Place.mem_walk_iff_reaches (whole : Place) :
    Visit.expr expr ∈ whole.walk ↔ whole.Reaches (.expr expr) := by
  constructor
  · have step : Place.Inductive fun whole =>
        Visit.expr expr ∈ whole.walk → whole.Reaches (.expr expr) := by
      intro whole ih met
      rcases (mem_walk_iff whole).1 met with rfl | ⟨part, isPart, met⟩
      · exact .refl
      · exact .head isPart (ih part isPart met)
    exact step.holds whole
  · intro reaches
    induction reaches using Relation.ReflTransGen.head_induction_on with
    | refl => exact (mem_walk_iff _).2 (.inl rfl)
    | head isPart _ ih => exact (mem_walk_iff _).2 (.inr ⟨_, isPart, ih⟩)

end MetIn

end SuiteMigration
