import Mathlib.Tactic.Common
import SuiteMigration.Proofs.Tree.Outlines
import SuiteMigration.Proofs.Tree.Rebuilding

/-!
# Following an outline through a transformer

A transformer rebuilds a node from its parts, and the outline of a node is put together from the
outlines of its parts. So a relation between outlines that can be put together in the same way holds
between a tree and what a transformer makes of it, as soon as it holds for the four actions of the
transformer.

## Main definitions

* `Compositional` - a relation between outlines that can be put together
* `Transformer.Traces` - the law of a transformer

## Main results

* `Transformer.Traces.yields_statements` - a list of statements after the transformation
* `Transformer.Traces.yields_statement`, `Transformer.Traces.yields_group` - one statement, and a
  list as a group
-/

namespace SuiteMigration

variable {σ α κ κ' : Type}

/-! ### The law of a transformer -/

/-- The relation holds for outlines whose parts it relates one by one, and tokens that are no
expressions are related to themselves. -/
structure Compositional (rel : List (Mark κ) → List (Mark κ') → Prop) : Prop where
  plain : ∀ tokens, rel (plain tokens) (plain tokens)
  append : ∀ {first first' second second'}, rel first first' → rel second second' →
    rel (first ++ second) (first' ++ second')
  closure : ∀ names {parts parts'}, rel parts parts' →
    rel [.group (.closure names) parts] [.group (.closure names) parts']

theorem Compositional.nil {rel : List (Mark κ) → List (Mark κ') → Prop}
    (laws : Compositional rel) : rel [] [] :=
  laws.plain []

/-- Each action relates the outline of a node to that of what it makes of it, given an action that
does so for the node with new parts. A name has no parts, so its action stands alone. The note about
a list of statements is related if the statements are. -/
structure Transformer.Traces (t : Transformer σ) (note : List Statement → κ)
    (note' : List Statement → κ') (rel : List (Mark κ) → List (Mark κ') → Prop) : Prop
    extends Compositional rel where
  name : ∀ token, Yields (t.expr (.identifier token) (pure (.identifier token))) fun new =>
    rel [.name token.word] (new.outline note')
  expr : ∀ expr parts, expr.name? = none →
    Yields parts (fun new => rel (expr.outline note) (new.outline note')) →
    Yields (t.expr expr parts) fun new => rel (expr.outline note) (new.outline note')
  rebind : ∀ closure parts,
    Yields parts (fun new => rel (closure.outline note) (new.outline note')) →
    Yields (t.closure closure parts) fun new => rel (closure.outline note) (new.outline note')
  decl : ∀ decl parts, Yields parts (fun new => rel (decl.outline note) (new.outline note')) →
    Yields (t.decl decl parts) fun new => rel (decl.outline note) (new.outline note')
  statement : ∀ statement parts,
    Yields parts (fun new => rel (statement.outline note) (new.outline note')) →
    Yields (t.statement statement parts) fun new =>
      rel (statement.outline note) (outlineOfStatements note' new)
  list : ∀ statements, Yields (transformStatements t statements) fun new =>
    rel (outlineOfStatements note statements) (outlineOfStatements note' new) →
    rel [.group (.list (note statements)) (outlineOfStatements note statements)]
      [.group (.list (note' new)) (outlineOfStatements note' new)]

/-- A transformer that does nothing with statements keeps each as the only one in its place. -/
theorem Yields.outline_singleton {rel : List (Mark κ) → List (Mark κ') → Prop}
    {note' : List Statement → κ'} {old : List (Mark κ)} {parts : StateM σ Statement}
    (yields : Yields parts fun new => rel old (new.outline note')) :
    Yields (return [← parts]) fun new => rel old (outlineOfStatements note' new) := by
  refine yields.bind fun new related => .pure ?_
  rw [outlineOfStatements_singleton]
  exact related

/-! ### The recursion -/

namespace Transformer.Traces

variable {t : Transformer σ} {note : List Statement → κ} {note' : List Statement → κ'}
  {rel : List (Mark κ) → List (Mark κ') → Prop}

/-- The group of a list of statements is related together with what is in it. -/
theorem yields_group (laws : t.Traces note note' rel) {statements : List Statement}
    (yields : Yields (transformStatements t statements) fun new =>
      rel (outlineOfStatements note statements) (outlineOfStatements note' new)) :
    Yields (transformStatements t statements) fun new =>
      rel [.group (.list (note statements)) (outlineOfStatements note statements)]
        [.group (.list (note' new)) (outlineOfStatements note' new)] :=
  (yields.and (laws.list statements)).mono fun _ both => both.2 both.1

-- The induction follows the transformer. An outline is put together from plain tokens and from the
-- outlines of parts, in the same way before and after.
mutual

/-- A tracing transformer relates the outlines of an expression before and after. -/
theorem yields_expr (laws : t.Traces note note' rel) (expr : Expr) :
    Yields (expr.transform t) fun new => rel (expr.outline note) (new.outline note') := by
  rw [Expr.transform.eq_def]
  match expr with
  | .identifier token => exact laws.name token
  | .literal token => exact laws.expr _ _ rfl (.pure (laws.plain _))
  | .raw tokens => exact laws.expr _ _ rfl (.pure (laws.plain _))
  | .member base period name =>
    exact laws.expr _ _ rfl <| (laws.yields_expr? base).bind fun _ base =>
      .pure (laws.append base (laws.plain _))
  | .call callee arguments closure =>
    exact laws.expr _ _ rfl <| (laws.yields_expr callee).bind fun _ callee =>
      (laws.yields_callArguments arguments).bind fun _ arguments =>
      (laws.yields_closure? closure).bind fun _ closure =>
      .pure (laws.append (laws.append callee arguments) closure)
  | .index base arguments =>
    exact laws.expr _ _ rfl <| (laws.yields_expr base).bind fun _ base =>
      (laws.yields_argumentList arguments).bind fun _ arguments =>
      .pure (laws.append base arguments)
  | .sequence operands operators =>
    exact laws.expr _ _ rfl <| (laws.yields_operands operands).bind fun _ operands =>
      .pure (operands operators)
  | .prefixed operator operand =>
    exact laws.expr _ _ rfl <| (laws.yields_expr operand).bind fun _ operand =>
      .pure (laws.append (laws.plain _) operand)
  | .suffixed operand operator =>
    exact laws.expr _ _ rfl <| (laws.yields_expr operand).bind fun _ operand =>
      .pure (laws.append operand (laws.plain _))
  | .trying keyword mark operand =>
    exact laws.expr _ _ rfl <| (laws.yields_expr operand).bind fun _ operand =>
      .pure (laws.append (laws.plain _) operand)
  | .awaiting keyword operand =>
    exact laws.expr _ _ rfl <| (laws.yields_expr operand).bind fun _ operand =>
      .pure (laws.append (laws.plain _) operand)
  | .tuple elements =>
    exact laws.expr _ _ rfl <| (laws.yields_argumentList elements).bind fun _ elements =>
      .pure elements
  | .collection left elements right =>
    exact laws.expr _ _ rfl <| (laws.yields_elements elements).bind fun _ elements =>
      .pure (laws.append (laws.append (laws.plain _) elements) (laws.plain _))
  | .closure closure =>
    exact laws.expr _ _ rfl <| (laws.yields_closure closure).bind fun _ closure => .pure closure
  | .specialized base arguments =>
    exact laws.expr _ _ rfl <| (laws.yields_expr base).bind fun _ base =>
      .pure (laws.append base (laws.plain _))

theorem yields_expr? (laws : t.Traces note note' rel) (expr : Option Expr) :
    Yields (transformExpr? t expr) fun new =>
      rel (outlineOfExpr? note expr) (outlineOfExpr? note' new) := by
  match expr with
  | none => exact .pure laws.nil
  | some expr => exact (laws.yields_expr expr).bind fun _ expr => .pure expr

theorem yields_argumentList (laws : t.Traces note note' rel) (list : ArgumentList) :
    Yields (list.transform t) fun new => rel (list.outline note) (new.outline note') := by
  match list with
  | ⟨opener, arguments, closer⟩ =>
    exact (laws.yields_arguments arguments).bind fun _ arguments =>
      .pure (laws.append (laws.append (laws.plain _) arguments) (laws.plain _))

theorem yields_callArguments (laws : t.Traces note note' rel) (list : CallArguments) :
    Yields (list.transform t) fun new => rel (list.outline note) (new.outline note') := by
  match list with
  | ⟨left, arguments, right⟩ =>
    exact (laws.yields_arguments arguments).bind fun _ arguments =>
      .pure (laws.append (laws.append (laws.plain _) arguments) (laws.plain _))

theorem yields_arguments (laws : t.Traces note note' rel) (arguments : List Argument) :
    Yields (transformArguments t arguments) fun new =>
      rel (outlineOfArguments note arguments) (outlineOfArguments note' new) := by
  match arguments with
  | [] => exact .pure laws.nil
  | ⟨label, value, comma⟩ :: later =>
    exact (laws.yields_expr value).bind fun _ value =>
      (laws.yields_arguments later).bind fun _ later =>
      .pure (laws.append (laws.append (laws.append (laws.plain _) value) (laws.plain _)) later)

theorem yields_operands (laws : t.Traces note note' rel) (operands : List Expr) :
    Yields (transformOperands t operands) fun new => ∀ operators,
      rel (outlineOfOperands note operands operators) (outlineOfOperands note' new operators) := by
  match operands with
  | [] => exact .pure fun _ => laws.nil
  | operand :: later =>
    exact (laws.yields_expr operand).bind fun _ operand =>
      (laws.yields_operands later).bind fun _ later =>
      .pure fun operators =>
        laws.append (laws.append operand (laws.plain _)) (later operators.tail)

theorem yields_elements (laws : t.Traces note note' rel) (elements : List CollectionElement) :
    Yields (transformElements t elements) fun new =>
      rel (outlineOfElements note elements) (outlineOfElements note' new) := by
  match elements with
  | [] => exact .pure laws.nil
  | .value value comma :: later =>
    exact (laws.yields_expr value).bind fun _ value =>
      (laws.yields_elements later).bind fun _ later =>
      .pure (laws.append (laws.append value (laws.plain _)) later)
  | .entry key colon value comma :: later =>
    exact (laws.yields_expr key).bind fun _ key => (laws.yields_expr value).bind fun _ value =>
      (laws.yields_elements later).bind fun _ later =>
      .pure (laws.append
        (laws.append (laws.append (laws.append key (laws.plain _)) value) (laws.plain _)) later)

theorem yields_closure (laws : t.Traces note note' rel) (closure : Closure) :
    Yields (closure.transform t) fun new => rel (closure.outline note) (new.outline note') := by
  match closure with
  | ⟨left, signature, statements, right⟩ =>
    exact laws.rebind _ _ <|
      (laws.yields_group (laws.yields_statements statements)).bind fun _ statements =>
      .pure (laws.closure _ (laws.append (laws.append (laws.plain _) statements) (laws.plain _)))

theorem yields_closure? (laws : t.Traces note note' rel) (closure : Option Closure) :
    Yields (transformClosure? t closure) fun new =>
      rel (outlineOfClosure? note closure) (outlineOfClosure? note' new) := by
  match closure with
  | none => exact .pure laws.nil
  | some closure => exact (laws.yields_closure closure).bind fun _ closure => .pure closure

theorem yields_statement (laws : t.Traces note note' rel) (statement : Statement) :
    Yields (statement.transform t) fun new =>
      rel (statement.outline note) (new.outline note') := by
  match statement with
  | ⟨item, semicolon⟩ =>
    exact (laws.yields_item item).bind fun _ item => .pure (laws.append item (laws.plain _))

/-- A tracing transformer relates the outlines of a statement list before and after. -/
theorem yields_statements (laws : t.Traces note note' rel) (statements : List Statement) :
    Yields (transformStatements t statements) fun new =>
      rel (outlineOfStatements note statements) (outlineOfStatements note' new) := by
  match statements with
  | [] => exact .pure laws.nil
  | statement :: later =>
    refine (laws.statement statement _ (laws.yields_statement statement)).bind fun _ expanded =>
      (laws.yields_statements later).bind fun _ later => .pure ?_
    rw [outlineOfStatements_append]
    exact laws.append expanded later

theorem yields_item (laws : t.Traces note note' rel) (item : Item) :
    Yields (item.transform t) fun new => rel (item.outline note) (new.outline note') := by
  match item with
  | .expr expr => exact (laws.yields_expr expr).bind fun _ expr => .pure expr
  | .decl decl => exact (laws.yields_decl decl).bind fun _ decl => .pure decl
  | .returning keyword value =>
    exact (laws.yields_expr? value).bind fun _ value => .pure (laws.append (laws.plain _) value)
  | .throwing keyword value =>
    exact (laws.yields_expr value).bind fun _ value => .pure (laws.append (laws.plain _) value)
  | .conditional statement =>
    exact (laws.yields_ifStatement statement).bind fun _ statement => .pure statement
  | .guarding keyword conditions elseKeyword body =>
    exact (laws.yields_conditions conditions).bind fun _ conditions =>
      (laws.yields_block body).bind fun _ body =>
      .pure (laws.append
        (laws.append (laws.append (laws.plain _) conditions) (laws.plain _)) body)
  | .forIn keyword modifiers pattern type inKeyword sequence filter body =>
    exact (laws.yields_expr sequence).bind fun _ sequence => .after fun _ =>
      (laws.yields_clause? filter).bind fun _ filter =>
      (laws.yields_block body).bind fun _ body => .after fun _ =>
      .pure (laws.append (laws.append (laws.append (laws.plain _) sequence) filter) body)
  | .whileLoop keyword conditions body =>
    exact .after fun _ => (laws.yields_conditions conditions).bind fun _ conditions =>
      (laws.yields_block body).bind fun _ body => .after fun _ =>
      .pure (laws.append (laws.append (laws.plain _) conditions) body)
  | .repeatLoop keyword body whileKeyword condition =>
    exact (laws.yields_block body).bind fun _ body =>
      (laws.yields_expr condition).bind fun _ condition =>
      .pure (laws.append (laws.append (laws.append (laws.plain _) body) (laws.plain _)) condition)
  | .doCatch keyword throwsClause body catches =>
    exact (laws.yields_block body).bind fun _ body =>
      (laws.yields_catches catches).bind fun _ catches =>
      .pure (laws.append (laws.append (laws.plain _) body) catches)
  | .switching keyword subject left cases right =>
    exact (laws.yields_expr subject).bind fun _ subject =>
      (laws.yields_cases cases).bind fun _ cases =>
      .pure (laws.append
        (laws.append (laws.append (laws.append (laws.plain _) subject) (laws.plain _)) cases)
        (laws.plain _))
  | .deferring keyword body =>
    exact (laws.yields_block body).bind fun _ body => .pure (laws.append (laws.plain _) body)
  | .raw tokens => exact .pure (laws.plain _)

theorem yields_block (laws : t.Traces note note' rel) (block : CodeBlock) :
    Yields (block.transform t) fun new => rel (block.outline note) (new.outline note') := by
  match block with
  | ⟨left, statements, right⟩ =>
    exact .after fun _ =>
      (laws.yields_group (laws.yields_statements statements)).bind fun _ statements =>
      .after fun _ => .pure (laws.append (laws.append (laws.plain _) statements) (laws.plain _))

theorem yields_block? (laws : t.Traces note note' rel) (block : Option CodeBlock) :
    Yields (transformBlock? t block) fun new =>
      rel (outlineOfBlock? note block) (outlineOfBlock? note' new) := by
  match block with
  | none => exact .pure laws.nil
  | some block => exact (laws.yields_block block).bind fun _ block => .pure block

theorem yields_ifStatement (laws : t.Traces note note' rel) (statement : IfStatement) :
    Yields (statement.transform t) fun new =>
      rel (statement.outline note) (new.outline note') := by
  match statement with
  | ⟨keyword, conditions, body, alternative⟩ =>
    exact .after fun _ => (laws.yields_conditions conditions).bind fun _ conditions =>
      (laws.yields_block body).bind fun _ body => .after fun _ =>
      (laws.yields_elseClause alternative).bind fun _ alternative =>
      .pure (laws.append (laws.append (laws.append (laws.plain _) conditions) body) alternative)

theorem yields_elseClause (laws : t.Traces note note' rel) (alternative : ElseClause) :
    Yields (alternative.transform t) fun new =>
      rel (alternative.outline note) (new.outline note') := by
  match alternative with
  | .absent => exact .pure laws.nil
  | .block keyword body =>
    exact (laws.yields_block body).bind fun _ body => .pure (laws.append (laws.plain _) body)
  | .chained keyword next =>
    exact (laws.yields_ifStatement next).bind fun _ next =>
      .pure (laws.append (laws.plain _) next)

theorem yields_conditions (laws : t.Traces note note' rel) (conditions : List Condition) :
    Yields (transformConditions t conditions) fun new =>
      rel (outlineOfConditions note conditions) (outlineOfConditions note' new) := by
  match conditions with
  | [] => exact .pure laws.nil
  | .expr expr comma :: later =>
    exact (laws.yields_expr expr).bind fun _ expr =>
      (laws.yields_conditions later).bind fun _ later =>
      .pure (laws.append (laws.append expr (laws.plain _)) later)
  | .binding specifier pattern type initializer comma :: later =>
    exact (laws.yields_clause? initializer).bind fun _ initializer => .after fun _ =>
      (laws.yields_conditions later).bind fun _ later =>
      .pure (laws.append
        (laws.append (laws.append (laws.plain _) initializer) (laws.plain _)) later)

theorem yields_clause (laws : t.Traces note note' rel) (clause : Clause) :
    Yields (clause.transform t) fun new => rel (clause.outline note) (new.outline note') := by
  match clause with
  | ⟨mark, value⟩ =>
    exact (laws.yields_expr value).bind fun _ value => .pure (laws.append (laws.plain _) value)

theorem yields_clause? (laws : t.Traces note note' rel) (clause : Option Clause) :
    Yields (transformClause? t clause) fun new =>
      rel (outlineOfClause? note clause) (outlineOfClause? note' new) := by
  match clause with
  | none => exact .pure laws.nil
  | some clause => exact (laws.yields_clause clause).bind fun _ clause => .pure clause

theorem yields_catches (laws : t.Traces note note' rel) (catches : List CatchClause) :
    Yields (transformCatches t catches) fun new =>
      rel (outlineOfCatches note catches) (outlineOfCatches note' new) := by
  match catches with
  | [] => exact .pure laws.nil
  | ⟨keyword, pattern, body⟩ :: later =>
    exact .after fun _ => (laws.yields_block body).bind fun _ body => .after fun _ =>
      (laws.yields_catches later).bind fun _ later =>
      .pure (laws.append (laws.append (laws.plain _) body) later)

theorem yields_cases (laws : t.Traces note note' rel) (cases : List SwitchCase) :
    Yields (transformCases t cases) fun new =>
      rel (outlineOfCases note cases) (outlineOfCases note' new) := by
  match cases with
  | [] => exact .pure laws.nil
  | ⟨label, statements⟩ :: later =>
    exact (laws.yields_group (laws.yields_statements statements)).bind fun _ statements =>
      (laws.yields_cases later).bind fun _ later =>
      .pure (laws.append (laws.append (laws.plain _) statements) later)

theorem yields_decl (laws : t.Traces note note' rel) (decl : Decl) :
    Yields (decl.transform t) fun new => rel (decl.outline note) (new.outline note') := by
  rw [Decl.transform.eq_def]
  match decl with
  | .importing decl => exact laws.decl _ _ (.pure (laws.plain _))
  | .raw decl => exact laws.decl _ _ (.pure (laws.plain _))
  | .type header members =>
    exact laws.decl _ _ <| (laws.yields_block members).bind fun _ members =>
      .pure (laws.append (laws.plain _) members)
  | .function header body =>
    exact laws.decl _ _ <| (laws.yields_block? body).bind fun _ body =>
      .pure (laws.append (laws.plain _) body)
  | .initializer header body =>
    exact laws.decl _ _ <| (laws.yields_block? body).bind fun _ body =>
      .pure (laws.append (laws.plain _) body)
  | .finalizer header body =>
    exact laws.decl _ _ <| (laws.yields_block? body).bind fun _ body =>
      .pure (laws.append (laws.plain _) body)
  | .variable header bindings =>
    exact laws.decl _ _ <| (laws.yields_bindings bindings).bind fun _ bindings =>
      .pure (laws.append (laws.plain _) bindings)

theorem yields_bindings (laws : t.Traces note note' rel) (bindings : List PatternBinding) :
    Yields (transformBindings t bindings) fun new =>
      rel (outlineOfBindings note bindings) (outlineOfBindings note' new) := by
  match bindings with
  | [] => exact .pure laws.nil
  | ⟨pattern, type, initializer, accessor, comma⟩ :: later =>
    exact (laws.yields_clause? initializer).bind fun _ initializer =>
      (laws.yields_block? accessor).bind fun _ accessor =>
      (laws.yields_bindings later).bind fun _ later =>
      .pure (laws.append
        (laws.append (laws.append (laws.append (laws.plain _) initializer) accessor)
          (laws.plain _)) later)

end

end Transformer.Traces

end SuiteMigration
