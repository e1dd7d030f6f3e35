import Mathlib.Tactic.Common
import SuiteMigration.Proofs.Tree.Cuts
import SuiteMigration.Tree.Transform

/-!
# Transformers that work at single places

Some transformers rebuild a tree and change it only at certain expressions, and they leave certain
closures alone. Cut at these places, the new tree is the old one with each of these expressions
replaced by what the transformer makes of it. Tokens between them stay where they are, and if every
one of these expressions is left alone, so is the tree.

Whether an expression is such a place depends on little: the name that it is, the name of which it
is a member, or the name that it calls and the end of the arguments. The transformer may change
names, but it makes no new places.

## Main definitions

* `Settles` - an action whose result does not depend on the state
* `Expr.head` - what decides about an expression
* `Part.reworked`, `Part.Kept` - what becomes of a part, and that it is left alone
* `Transformer.Reworks` - the law of a transformer

## Main results

* `Transformer.Reworks.cut_statement`, `Transformer.Reworks.cut_file` - a tree after the
  transformation
-/

namespace SuiteMigration

variable {σ α β : Type}

/-! ### Results that do not depend on the state -/

/-- Whatever the state, the result of the action is the same, and it meets the condition. -/
def Settles (action : StateM σ α) (post : α → Prop) : Prop :=
  ∃ value, post value ∧ ∀ state, (action state).1 = value

namespace Settles

variable {action : StateM σ α} {next : α → StateM σ β} {post post' : α → Prop} {goal : β → Prop}

theorem pure {value : α} (holds : post value) : Settles (Pure.pure value : StateM σ α) post :=
  ⟨value, holds, fun _ => rfl⟩

/-- Two actions in a row do not depend on the state if neither does. -/
theorem bind (first : Settles action post)
    (second : ∀ value, post value → Settles (next value) goal) :
    Settles (action >>= next) goal := by
  obtain ⟨value, holds, gives⟩ := first
  obtain ⟨result, holdsLater, givesLater⟩ := second value holds
  refine ⟨result, holdsLater, fun state => ?_⟩
  show (next (action state).1 (action state).2).1 = result
  rw [gives]
  exact givesLater _

/-- A change of the state does not matter. -/
theorem after {change : σ → σ} {later : StateM σ β} (second : Settles later goal) :
    Settles (modify change >>= fun _ => later) goal := by
  obtain ⟨result, holds, gives⟩ := second
  exact ⟨result, holds, fun _ => gives _⟩

theorem mono (settles : Settles action post) (weaker : ∀ value, post value → post' value) :
    Settles action post' := by
  obtain ⟨value, holds, gives⟩ := settles
  exact ⟨value, weaker value holds, gives⟩

theorem holds (settles : Settles action post) (state : σ) : post (action state).1 := by
  obtain ⟨value, holds, gives⟩ := settles
  rw [gives]
  exact holds

/-- The state makes no difference. -/
theorem eq_of_state (settles : Settles action post) (state state' : σ) :
    (action state).1 = (action state').1 := by
  obtain ⟨value, -, gives⟩ := settles
  rw [gives, gives]

end Settles

/-! ### Heads of expressions -/

/-- What can be seen of an expression without going into its parts. -/
inductive Head
  /-- A name. -/
  | name (token : Token)
  /-- A member, and the name of which it is one. -/
  | member (base : Option String)
  /-- A call with the name that is called, and whether its arguments are closed. -/
  | call (callee : Option String) (closed : Bool)
  /-- Anything else. -/
  | other

/-- The head with other names in place of those within the expression. -/
def Head.rename (rename : String → String) : Head → Head
  | .name token => .name token
  | .member base => .member (base.map rename)
  | .call callee closed => .call (callee.map rename) closed
  | .other => .other

/-- The head of an expression. -/
def Expr.head : Expr → Head
  | .identifier token => .name token
  | .member base _ _ => .member (base.bind Expr.name?)
  | .call callee arguments _ => .call callee.name? arguments.isClosed
  | _ => .other

/-- The name that an expression with the head is. -/
def Head.name? : Head → Option String
  | .name token => some token.text
  | _ => none

/-- The name of an expression is that of its head. -/
theorem Expr.name?_eq (expr : Expr) : expr.name? = expr.head.name? := by
  cases expr <;> rfl

/-! ### The law of a transformer -/

/-- What becomes of a part: a token stays, and so does a closure. -/
def Part.reworked (t : Transformer σ) (initial : σ) (stops : Stops) : Part → List Part
  | .expr inner => (inner.transform t initial).1.cut stops
  | part => [part]

/-- The part is left alone. -/
def Part.Kept (t : Transformer σ) (initial : σ) : Part → Prop
  | .expr inner => (inner.transform t initial).1 = inner
  | _ => True

/-- The transformer changes expressions at the first stops only, leaves closures at them alone, and
passes everything else. The new tree is cut at the second stops, and there is one only where there
was one before. -/
structure Transformer.Reworks (t : Transformer σ) (stops stops' : Stops)
    (rename : String → String) : Prop where
  pass : ∀ {old new parts}, stops.expr old = false → new.head = old.head.rename rename →
    Settles parts (· = new) → Settles (t.expr old parts) (· = new) ∧
      stops'.expr new = false ∧ new.name? = old.name?.map rename
  stop : ∀ {old parts}, stops.expr old = true →
    Settles parts (fun new => new.head = old.head.rename rename) →
    Settles (t.expr old parts) fun new => new.name? = old.name?.map rename
  passClosure : ∀ {closure parts}, stops.closure closure = false → t.closure closure parts = parts
  stopClosure : ∀ {closure parts}, stops.closure closure = true →
    t.closure closure parts = pure closure
  signature : ∀ left signature old new right,
    stops'.closure ⟨left, signature, new, right⟩ = stops.closure ⟨left, signature, old, right⟩
  decl : ∀ decl parts, t.decl decl parts = parts
  statement : ∀ statement parts, t.statement statement parts = do return [← parts]

/-- The new parts are what becomes of the old ones, and the new node is the old one if they are left
alone. -/
structure Reworked (t : Transformer σ) (initial : σ) (stops' : Stops) (old new : List Part)
    (node node' : α) : Prop where
  parts : new = old.flatMap (Part.reworked t initial stops')
  kept : (∀ part ∈ old, part.Kept t initial) → node' = node

namespace Reworked

variable {t : Transformer σ} {initial : σ} {stops' : Stops} {old new later newLater : List Part}
  {node node' : α}

/-- Two parts of a node in a row. The first stands for a node that still lacks the second. -/
theorem ap {make make' : α → β} (first : Reworked t initial stops' old new make make')
    (second : Reworked t initial stops' later newLater node node') :
    Reworked t initial stops' (old ++ later) (new ++ newLater) (make node) (make' node') := by
  constructor
  · rw [List.flatMap_append, ← first.parts, ← second.parts]
  · intro kept
    rw [List.forall_mem_append] at kept
    rw [first.kept kept.1, second.kept kept.2]

/-- A node is rebuilt if its only part is. -/
theorem map (make : α → β) (reworked : Reworked t initial stops' old new node node') :
    Reworked t initial stops' old new (make node) (make node') :=
  ⟨reworked.parts, fun kept => congrArg make (reworked.kept kept)⟩

/-- A list is rebuilt item by item. -/
theorem cons {nodes nodes' : List α} (first : Reworked t initial stops' old new node node')
    (second : Reworked t initial stops' later newLater nodes nodes') :
    Reworked t initial stops' (old ++ later) (new ++ newLater) (node :: nodes) (node' :: nodes') :=
  (first.map List.cons).ap second

/-- Loose tokens stay. -/
theorem loose (run : List Token) (value : α) :
    Reworked t initial stops' (loose run) (loose run) value value := by
  constructor
  · unfold SuiteMigration.loose
    rw [List.flatMap_map]
    exact List.map_eq_flatMap
  · intro _
    rfl

/-- Loose tokens stand before what is rebuilt. -/
theorem before (run : List Token) (reworked : Reworked t initial stops' old new node node') :
    Reworked t initial stops' (SuiteMigration.loose run ++ old) (SuiteMigration.loose run ++ new)
      node node' :=
  (Reworked.loose run id).ap reworked

/-- Loose tokens stand behind what is rebuilt. -/
theorem behind (run : List Token) (reworked : Reworked t initial stops' old new node node') :
    Reworked t initial stops' (old ++ SuiteMigration.loose run) (new ++ SuiteMigration.loose run)
      node node' :=
  (reworked.map (Function.const Unit)).ap (.loose run ())

end Reworked

/-! ### The recursion -/

namespace Transformer.Reworks

variable {t : Transformer σ} {stops stops' : Stops} {rename : String → String}

/-- The action at an expression, after its parts. -/
theorem atExpr (laws : t.Reworks stops stops' rename) (initial : σ) {expr : Expr}
    {parts : StateM σ Expr} {inner : List Part}
    (transform_eq : expr.transform t = t.expr expr parts)
    (cut_eq : expr.cut stops = stops.atExpr expr inner)
    (rebuilt : Settles parts fun new => new.head = expr.head.rename rename ∧
      ∃ newInner, new.cut stops' = stops'.atExpr new newInner ∧
        Reworked t initial stops' inner newInner expr new) :
    Settles (expr.transform t) fun new => new.name? = expr.name?.map rename ∧
      Reworked t initial stops' (expr.cut stops) (new.cut stops') expr new := by
  cases stop : stops.expr expr with
  | true =>
    -- The whole expression is one part, and what becomes of it is the new expression.
    obtain ⟨value, named, gives⟩ := laws.stop stop (rebuilt.mono fun _ new => new.1)
    rw [← transform_eq] at gives
    refine ⟨value, ⟨named, ?_⟩, gives⟩
    rw [cut_eq, Stops.atExpr, if_pos stop]
    constructor
    · rw [List.flatMap_singleton, Part.reworked, gives]
    · intro kept
      rw [← gives initial]
      exact kept (.expr expr) List.mem_cons_self
  | false =>
    obtain ⟨new, ⟨head, newInner, newCut_eq, reworked⟩, gives⟩ := rebuilt
    obtain ⟨⟨_, rfl, passes⟩, unstopped, named⟩ := laws.pass stop head ⟨new, rfl, gives⟩
    rw [← transform_eq] at passes
    refine ⟨_, ⟨named, ?_⟩, passes⟩
    rw [cut_eq, newCut_eq, Stops.atExpr, Stops.atExpr, if_neg (by simp [stop]),
      if_neg (by simp [unstopped])]
    exact reworked

/-- The action at a closure, after its statements. -/
theorem atClosure (laws : t.Reworks stops stops' rename) (initial : σ) {left right : Token}
    {signature : Option ClosureSignature} {old : List Statement}
    (rebuilt : Settles (transformStatements t old) fun new =>
      Reworked t initial stops' (cutStatements stops old) (cutStatements stops' new) old new) :
    Settles (Closure.transform t ⟨left, signature, old, right⟩) fun new =>
      Reworked t initial stops' (Closure.cut stops ⟨left, signature, old, right⟩)
        (new.cut stops') ⟨left, signature, old, right⟩ new := by
  rw [Closure.transform, Closure.cut, Stops.atClosure]
  cases stop : stops.closure ⟨left, signature, old, right⟩ with
  | true =>
    rw [laws.stopClosure stop, if_pos rfl]
    refine .pure ⟨?_, fun _ => rfl⟩
    rw [Closure.cut, Stops.atClosure, laws.signature left signature old, if_pos stop]
    rfl
  | false =>
    rw [laws.passClosure stop, if_neg Bool.false_ne_true]
    refine rebuilt.bind fun new statements => .pure ?_
    rw [Closure.cut, Stops.atClosure, laws.signature left signature old, if_neg (by simp [stop])]
    exact ((statements.before (left :: Node.tokens signature)).behind [right]).map
      (Closure.mk left signature · right)

-- The induction follows the transformer. The parts of a node are put together from those of its
-- parts in the same way before and after.
mutual

/-- Every part of an expression is rebuilt on its own, whatever the state is. -/
theorem settles_expr (laws : t.Reworks stops stops' rename) (initial : σ) (expr : Expr) :
    Settles (expr.transform t) fun new => new.name? = expr.name?.map rename ∧
      Reworked t initial stops' (expr.cut stops) (new.cut stops') expr new := by
  -- A node that is no stop is cut where its parts are; the tokens between them stay loose.
  match expr with
  | .identifier token =>
    exact laws.atExpr initial rfl rfl (.pure ⟨rfl, _, rfl, .loose [token] _⟩)
  | .literal token => exact laws.atExpr initial rfl rfl (.pure ⟨rfl, _, rfl, .loose [token] _⟩)
  | .raw tokens => exact laws.atExpr initial rfl rfl (.pure ⟨rfl, _, rfl, .loose tokens _⟩)
  | .member base period name =>
    exact laws.atExpr initial rfl rfl <| (laws.settles_expr? initial base).bind fun _ base =>
      .pure ⟨congrArg Head.member base.1, _, rfl,
        (base.2.behind [period, name]).map (Expr.member · period name)⟩
  | .call callee arguments closure =>
    exact laws.atExpr initial rfl rfl <| (laws.settles_expr initial callee).bind fun _ callee =>
      (laws.settles_callArguments initial arguments).bind fun _ arguments =>
      (laws.settles_closure? initial closure).bind fun _ closure =>
      .pure ⟨congrArg₂ Head.call callee.1 arguments.1, _, rfl,
        ((callee.2.map Expr.call).ap arguments.2).ap closure⟩
  | .index base arguments =>
    exact laws.atExpr initial rfl rfl <| (laws.settles_expr initial base).bind fun _ base =>
      (laws.settles_argumentList initial arguments).bind fun _ arguments =>
      .pure ⟨rfl, _, rfl, (base.2.map Expr.index).ap arguments⟩
  | .sequence operands operators =>
    exact laws.atExpr initial rfl rfl <|
      (laws.settles_operands initial operands).bind fun _ operands =>
      .pure ⟨rfl, _, rfl, (operands operators).map (Expr.sequence · operators)⟩
  | .prefixed operator operand =>
    exact laws.atExpr initial rfl rfl <| (laws.settles_expr initial operand).bind fun _ operand =>
      .pure ⟨rfl, _, rfl, (operand.2.before [operator]).map (Expr.prefixed operator)⟩
  | .suffixed operand operator =>
    exact laws.atExpr initial rfl rfl <| (laws.settles_expr initial operand).bind fun _ operand =>
      .pure ⟨rfl, _, rfl, (operand.2.behind [operator]).map (Expr.suffixed · operator)⟩
  | .trying keyword mark operand =>
    exact laws.atExpr initial rfl rfl <| (laws.settles_expr initial operand).bind fun _ operand =>
      .pure ⟨rfl, _, rfl,
        (operand.2.before (keyword :: Node.tokens mark)).map (Expr.trying keyword mark)⟩
  | .awaiting keyword operand =>
    exact laws.atExpr initial rfl rfl <| (laws.settles_expr initial operand).bind fun _ operand =>
      .pure ⟨rfl, _, rfl, (operand.2.before [keyword]).map (Expr.awaiting keyword)⟩
  | .tuple elements =>
    exact laws.atExpr initial rfl rfl <|
      (laws.settles_argumentList initial elements).bind fun _ elements =>
      .pure ⟨rfl, _, rfl, elements.map Expr.tuple⟩
  | .collection left elements right =>
    exact laws.atExpr initial rfl rfl <|
      (laws.settles_elements initial elements).bind fun _ elements =>
      .pure ⟨rfl, _, rfl,
        ((elements.before [left]).behind [right]).map (Expr.collection left · right)⟩
  | .closure closure =>
    exact laws.atExpr initial rfl rfl <|
      (laws.settles_closure initial closure).bind fun _ closure =>
      .pure ⟨rfl, _, rfl, closure.map Expr.closure⟩
  | .specialized base arguments =>
    exact laws.atExpr initial rfl rfl <| (laws.settles_expr initial base).bind fun _ base =>
      .pure ⟨rfl, _, rfl, (base.2.behind arguments).map (Expr.specialized · arguments)⟩

theorem settles_expr? (laws : t.Reworks stops stops' rename) (initial : σ) (expr : Option Expr) :
    Settles (transformExpr? t expr) fun new =>
      new.bind Expr.name? = (expr.bind Expr.name?).map rename ∧
        Reworked t initial stops' (cutExpr? stops expr) (cutExpr? stops' new) expr new := by
  match expr with
  | none => exact .pure ⟨rfl, .loose [] _⟩
  | some expr =>
    exact (laws.settles_expr initial expr).bind fun _ expr => .pure ⟨expr.1, expr.2.map some⟩

theorem settles_argumentList (laws : t.Reworks stops stops' rename) (initial : σ)
    (list : ArgumentList) :
    Settles (list.transform t) fun new =>
      Reworked t initial stops' (list.cut stops) (new.cut stops') list new := by
  match list with
  | ⟨opener, arguments, closer⟩ =>
    exact (laws.settles_arguments initial arguments).bind fun _ arguments =>
      .pure (((arguments.before [opener]).behind [closer]).map (ArgumentList.mk opener · closer))

theorem settles_callArguments (laws : t.Reworks stops stops' rename) (initial : σ)
    (list : CallArguments) :
    Settles (list.transform t) fun new => new.isClosed = list.isClosed ∧
      Reworked t initial stops' (list.cut stops) (new.cut stops') list new := by
  match list with
  | ⟨left, arguments, right⟩ =>
    exact (laws.settles_arguments initial arguments).bind fun _ arguments =>
      .pure ⟨rfl, ((arguments.before (Node.tokens left)).behind (Node.tokens right)).map
        (CallArguments.mk left · right)⟩

theorem settles_arguments (laws : t.Reworks stops stops' rename) (initial : σ)
    (arguments : List Argument) :
    Settles (transformArguments t arguments) fun new =>
      Reworked t initial stops' (cutArguments stops arguments) (cutArguments stops' new)
        arguments new := by
  match arguments with
  | [] => exact .pure (.loose [] _)
  | ⟨label, value, comma⟩ :: later =>
    exact (laws.settles_expr initial value).bind fun _ value =>
      (laws.settles_arguments initial later).bind fun _ later =>
      .pure ((((value.2.before (Node.tokens label)).behind (Node.tokens comma)).map
        (Argument.mk label · comma)).cons later)

theorem settles_operands (laws : t.Reworks stops stops' rename) (initial : σ)
    (operands : List Expr) :
    Settles (transformOperands t operands) fun new => ∀ operators,
      Reworked t initial stops' (cutOperands stops operands operators)
        (cutOperands stops' new operators) operands new := by
  match operands with
  | [] => exact .pure fun _ => .loose [] _
  | operand :: later =>
    exact (laws.settles_expr initial operand).bind fun _ operand =>
      (laws.settles_operands initial later).bind fun _ later =>
      .pure fun operators =>
        (operand.2.behind (Node.tokens operators.head?)).cons (later operators.tail)

theorem settles_elements (laws : t.Reworks stops stops' rename) (initial : σ)
    (elements : List CollectionElement) :
    Settles (transformElements t elements) fun new =>
      Reworked t initial stops' (cutElements stops elements) (cutElements stops' new)
        elements new := by
  match elements with
  | [] => exact .pure (.loose [] _)
  | .value value comma :: later =>
    exact (laws.settles_expr initial value).bind fun _ value =>
      (laws.settles_elements initial later).bind fun _ later =>
      .pure (((value.2.behind (Node.tokens comma)).map (CollectionElement.value · comma)).cons
        later)
  | .entry key colon value comma :: later =>
    exact (laws.settles_expr initial key).bind fun _ key =>
      (laws.settles_expr initial value).bind fun _ value =>
      (laws.settles_elements initial later).bind fun _ later =>
      .pure ((((key.2.map (CollectionElement.entry · colon)).ap (value.2.before [colon])).ap
        (.loose (Node.tokens comma) comma)).cons later)

theorem settles_closure (laws : t.Reworks stops stops' rename) (initial : σ) (closure : Closure) :
    Settles (closure.transform t) fun new =>
      Reworked t initial stops' (closure.cut stops) (new.cut stops') closure new := by
  match closure with
  | ⟨left, signature, statements, right⟩ =>
    exact laws.atClosure initial (laws.settles_statements initial statements)

theorem settles_closure? (laws : t.Reworks stops stops' rename) (initial : σ)
    (closure : Option Closure) :
    Settles (transformClosure? t closure) fun new =>
      Reworked t initial stops' (cutClosure? stops closure) (cutClosure? stops' new)
        closure new := by
  match closure with
  | none => exact .pure (.loose [] _)
  | some closure =>
    exact (laws.settles_closure initial closure).bind fun _ closure => .pure (closure.map some)

theorem settles_statement (laws : t.Reworks stops stops' rename) (initial : σ)
    (statement : Statement) :
    Settles (statement.transform t) fun new =>
      Reworked t initial stops' (statement.cut stops) (new.cut stops') statement new := by
  match statement with
  | ⟨item, semicolon⟩ =>
    exact (laws.settles_item initial item).bind fun _ item =>
      .pure ((item.behind (Node.tokens semicolon)).map (Statement.mk · semicolon))

/-- Every part of some statements is rebuilt on its own. -/
theorem settles_statements (laws : t.Reworks stops stops' rename) (initial : σ)
    (statements : List Statement) :
    Settles (transformStatements t statements) fun new =>
      Reworked t initial stops' (cutStatements stops statements) (cutStatements stops' new)
        statements new := by
  match statements with
  | [] => exact .pure (.loose [] _)
  | statement :: later =>
    rw [transformStatements, laws.statement]
    have alone : Settles (do return [← statement.transform t]) fun expanded =>
        ∃ new, expanded = [new] ∧
          Reworked t initial stops' (statement.cut stops) (new.cut stops') statement new :=
      (laws.settles_statement initial statement).bind fun new reworked =>
        .pure ⟨new, rfl, reworked⟩
    refine alone.bind ?_
    rintro _ ⟨new, rfl, statement⟩
    exact (laws.settles_statements initial later).bind fun _ later => .pure (statement.cons later)

theorem settles_item (laws : t.Reworks stops stops' rename) (initial : σ) (item : Item) :
    Settles (item.transform t) fun new =>
      Reworked t initial stops' (item.cut stops) (new.cut stops') item new := by
  match item with
  | .expr expr =>
    exact (laws.settles_expr initial expr).bind fun _ expr => .pure (expr.2.map Item.expr)
  | .decl decl =>
    exact (laws.settles_decl initial decl).bind fun _ decl => .pure (decl.map Item.decl)
  | .returning keyword value =>
    exact (laws.settles_expr? initial value).bind fun _ value =>
      .pure ((value.2.before [keyword]).map (Item.returning keyword))
  | .throwing keyword value =>
    exact (laws.settles_expr initial value).bind fun _ value =>
      .pure ((value.2.before [keyword]).map (Item.throwing keyword))
  | .conditional statement =>
    exact (laws.settles_ifStatement initial statement).bind fun _ statement =>
      .pure (statement.map Item.conditional)
  | .guarding keyword conditions elseKeyword body =>
    exact (laws.settles_conditions initial conditions).bind fun _ conditions =>
      (laws.settles_block initial body).bind fun _ body =>
      .pure (((conditions.before [keyword]).map (Item.guarding keyword · elseKeyword)).ap
        (body.before [elseKeyword]))
  | .forIn keyword modifiers pattern type inKeyword sequence filter body =>
    exact (laws.settles_expr initial sequence).bind fun _ sequence => .after <|
      (laws.settles_clause? initial filter).bind fun _ filter =>
      (laws.settles_block initial body).bind fun _ body => .after <|
      .pure (((((sequence.2.before [inKeyword]).before
        (keyword :: modifiers ++ Node.tokens pattern ++ Node.tokens type)).map
          (Item.forIn keyword modifiers pattern type inKeyword)).ap filter).ap body)
  | .whileLoop keyword conditions body =>
    exact .after <| (laws.settles_conditions initial conditions).bind fun _ conditions =>
      (laws.settles_block initial body).bind fun _ body => .after <|
      .pure (((conditions.before [keyword]).map (Item.whileLoop keyword)).ap body)
  | .repeatLoop keyword body whileKeyword condition =>
    exact (laws.settles_block initial body).bind fun _ body =>
      (laws.settles_expr initial condition).bind fun _ condition =>
      .pure (((body.before [keyword]).map (Item.repeatLoop keyword · whileKeyword)).ap
        (condition.2.before [whileKeyword]))
  | .doCatch keyword throwsClause body catches =>
    exact (laws.settles_block initial body).bind fun _ body =>
      (laws.settles_catches initial catches).bind fun _ catches =>
      .pure (((body.before (keyword :: throwsClause)).map (Item.doCatch keyword throwsClause)).ap
        catches)
  | .switching keyword subject left cases right =>
    exact (laws.settles_expr initial subject).bind fun _ subject =>
      (laws.settles_cases initial cases).bind fun _ cases =>
      .pure ((((subject.2.before [keyword]).map (Item.switching keyword · left)).ap
        (cases.before [left])).ap (.loose [right] right))
  | .deferring keyword body =>
    exact (laws.settles_block initial body).bind fun _ body =>
      .pure ((body.before [keyword]).map (Item.deferring keyword))
  | .raw tokens => exact .pure (.loose tokens _)

theorem settles_block (laws : t.Reworks stops stops' rename) (initial : σ) (block : CodeBlock) :
    Settles (block.transform t) fun new =>
      Reworked t initial stops' (block.cut stops) (new.cut stops') block new := by
  match block with
  | ⟨left, statements, right⟩ =>
    exact .after <| (laws.settles_statements initial statements).bind fun _ statements => .after <|
      .pure (((statements.before [left]).behind [right]).map (CodeBlock.mk left · right))

theorem settles_block? (laws : t.Reworks stops stops' rename) (initial : σ)
    (block : Option CodeBlock) :
    Settles (transformBlock? t block) fun new =>
      Reworked t initial stops' (cutBlock? stops block) (cutBlock? stops' new) block new := by
  match block with
  | none => exact .pure (.loose [] _)
  | some block =>
    exact (laws.settles_block initial block).bind fun _ block => .pure (block.map some)

theorem settles_ifStatement (laws : t.Reworks stops stops' rename) (initial : σ)
    (statement : IfStatement) :
    Settles (statement.transform t) fun new =>
      Reworked t initial stops' (statement.cut stops) (new.cut stops') statement new := by
  match statement with
  | ⟨keyword, conditions, body, alternative⟩ =>
    exact .after <| (laws.settles_conditions initial conditions).bind fun _ conditions =>
      (laws.settles_block initial body).bind fun _ body => .after <|
      (laws.settles_elseClause initial alternative).bind fun _ alternative =>
      .pure ((((conditions.before [keyword]).map (IfStatement.mk keyword)).ap body).ap alternative)

theorem settles_elseClause (laws : t.Reworks stops stops' rename) (initial : σ)
    (alternative : ElseClause) :
    Settles (alternative.transform t) fun new =>
      Reworked t initial stops' (alternative.cut stops) (new.cut stops') alternative new := by
  match alternative with
  | .absent => exact .pure (.loose [] _)
  | .block keyword body =>
    exact (laws.settles_block initial body).bind fun _ body =>
      .pure ((body.before [keyword]).map (ElseClause.block keyword))
  | .chained keyword next =>
    exact (laws.settles_ifStatement initial next).bind fun _ next =>
      .pure ((next.before [keyword]).map (ElseClause.chained keyword))

theorem settles_conditions (laws : t.Reworks stops stops' rename) (initial : σ)
    (conditions : List Condition) :
    Settles (transformConditions t conditions) fun new =>
      Reworked t initial stops' (cutConditions stops conditions) (cutConditions stops' new)
        conditions new := by
  match conditions with
  | [] => exact .pure (.loose [] _)
  | .expr expr comma :: later =>
    exact (laws.settles_expr initial expr).bind fun _ expr =>
      (laws.settles_conditions initial later).bind fun _ later =>
      .pure (((expr.2.behind (Node.tokens comma)).map (Condition.expr · comma)).cons later)
  | .binding specifier pattern type initializer comma :: later =>
    exact (laws.settles_clause? initial initializer).bind fun _ initializer => .after <|
      (laws.settles_conditions initial later).bind fun _ later =>
      .pure ((((initializer.before (specifier :: Node.tokens pattern ++ Node.tokens type)).behind
        (Node.tokens comma)).map (Condition.binding specifier pattern type · comma)).cons later)

theorem settles_clause (laws : t.Reworks stops stops' rename) (initial : σ) (clause : Clause) :
    Settles (clause.transform t) fun new =>
      Reworked t initial stops' (clause.cut stops) (new.cut stops') clause new := by
  match clause with
  | ⟨mark, value⟩ =>
    exact (laws.settles_expr initial value).bind fun _ value =>
      .pure ((value.2.before [mark]).map (Clause.mk mark))

theorem settles_clause? (laws : t.Reworks stops stops' rename) (initial : σ)
    (clause : Option Clause) :
    Settles (transformClause? t clause) fun new =>
      Reworked t initial stops' (cutClause? stops clause) (cutClause? stops' new) clause new := by
  match clause with
  | none => exact .pure (.loose [] _)
  | some clause =>
    exact (laws.settles_clause initial clause).bind fun _ clause => .pure (clause.map some)

theorem settles_catches (laws : t.Reworks stops stops' rename) (initial : σ)
    (catches : List CatchClause) :
    Settles (transformCatches t catches) fun new =>
      Reworked t initial stops' (cutCatches stops catches) (cutCatches stops' new)
        catches new := by
  match catches with
  | [] => exact .pure (.loose [] _)
  | ⟨keyword, pattern, body⟩ :: later =>
    exact .after <| (laws.settles_block initial body).bind fun _ body => .after <|
      (laws.settles_catches initial later).bind fun _ later =>
      .pure (((body.before (keyword :: pattern)).map (CatchClause.mk keyword pattern)).cons later)

theorem settles_cases (laws : t.Reworks stops stops' rename) (initial : σ)
    (cases : List SwitchCase) :
    Settles (transformCases t cases) fun new =>
      Reworked t initial stops' (cutCases stops cases) (cutCases stops' new) cases new := by
  match cases with
  | [] => exact .pure (.loose [] _)
  | ⟨label, statements⟩ :: later =>
    exact (laws.settles_statements initial statements).bind fun _ statements =>
      (laws.settles_cases initial later).bind fun _ later =>
      .pure (((statements.before label).map (SwitchCase.mk label)).cons later)

theorem settles_decl (laws : t.Reworks stops stops' rename) (initial : σ) (decl : Decl) :
    Settles (decl.transform t) fun new =>
      Reworked t initial stops' (decl.cut stops) (new.cut stops') decl new := by
  rw [Decl.transform.eq_def, laws.decl]
  match decl with
  | .importing decl => exact .pure (.loose (Node.tokens decl) _)
  | .raw decl => exact .pure (.loose (Node.tokens decl) _)
  | .type header members =>
    exact (laws.settles_block initial members).bind fun _ members =>
      .pure ((members.before (Node.tokens header)).map (Decl.type header))
  | .function header body =>
    exact (laws.settles_block? initial body).bind fun _ body =>
      .pure ((body.before (Node.tokens header)).map (Decl.function header))
  | .variable header bindings =>
    exact (laws.settles_bindings initial bindings).bind fun _ bindings =>
      .pure ((bindings.before (Node.tokens header)).map (Decl.variable header))
  | .initializer header body =>
    exact (laws.settles_block? initial body).bind fun _ body =>
      .pure ((body.before (Node.tokens header)).map (Decl.initializer header))
  | .finalizer header body =>
    exact (laws.settles_block? initial body).bind fun _ body =>
      .pure ((body.before (Node.tokens header)).map (Decl.finalizer header))

theorem settles_bindings (laws : t.Reworks stops stops' rename) (initial : σ)
    (bindings : List PatternBinding) :
    Settles (transformBindings t bindings) fun new =>
      Reworked t initial stops' (cutBindings stops bindings) (cutBindings stops' new)
        bindings new := by
  match bindings with
  | [] => exact .pure (.loose [] _)
  | ⟨pattern, type, initializer, accessor, comma⟩ :: later =>
    exact (laws.settles_clause? initial initializer).bind fun _ initializer =>
      (laws.settles_block? initial accessor).bind fun _ accessor =>
      (laws.settles_bindings initial later).bind fun _ later =>
      .pure (((((initializer.before (Node.tokens pattern ++ Node.tokens type)).map
        (PatternBinding.mk pattern type)).ap accessor).ap (.loose (Node.tokens comma) comma)).cons
          later)

end

/-! ### A tree after the transformation -/

variable (laws : t.Reworks stops stops' rename) (initial : σ)
include laws

/-- The parts of a transformed statement are those of the old one, rebuilt. -/
theorem cut_statement (statement : Statement) :
    (statement.transform t initial).1.cut stops' =
      (statement.cut stops).flatMap (Part.reworked t initial stops') :=
  ((laws.settles_statement initial statement).holds initial).parts

/-- A statement is left alone if the expressions at the stops are. -/
theorem transform_statement_eq_self {statement : Statement}
    (kept : ∀ part ∈ statement.cut stops, part.Kept t initial) :
    (statement.transform t initial).1 = statement :=
  ((laws.settles_statement initial statement).holds initial).kept kept

/-- The parts of a transformed file are those of the old one, rebuilt. -/
theorem cut_file (file : SourceFile) :
    (file.transform t initial).1.cut stops' =
      (file.cut stops).flatMap (Part.reworked t initial stops') := by
  have statements := ((laws.settles_statements initial file.statements).holds initial)
  exact (statements.behind [file.endOfFile]).parts

end Transformer.Reworks

end SuiteMigration
