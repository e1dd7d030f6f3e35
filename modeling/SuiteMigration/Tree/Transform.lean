import SuiteMigration.Tree.Names

/-!
# Transforming a tree

One recursion rebuilds a tree, and a `Transformer` says what happens on the way. For an expression,
a closure, a declaration and a statement it is given the node and the action that transforms the
parts of the node; it may run that action, change what comes out, or leave the node alone. The
recursion also announces where scopes open and close and where names come into scope.

## Main definitions

* `Transformer` - what happens at each kind of node
* `Expr.transform`, `Statement.transform`, `transformStatements` - the recursion
* `SourceFile.transform` - a transformer applied to a file
-/

namespace SuiteMigration

/-- What a transformation does at each kind of node, with a state it can carry along. A
transformer that overrides nothing rebuilds the tree as it was. -/
structure Transformer (σ : Type) where
  /-- At an expression, given the action that transforms its parts. -/
  expr : Expr → StateM σ Expr → StateM σ Expr := fun _ parts => parts
  /-- At a closure, given the action that transforms its statements. -/
  closure : Closure → StateM σ Closure → StateM σ Closure := fun _ parts => parts
  /-- At a declaration, given the action that transforms its parts. -/
  decl : Decl → StateM σ Decl → StateM σ Decl := fun _ parts => parts
  /-- At a statement of a list, which may become several. -/
  statement : Statement → StateM σ Statement → StateM σ (List Statement) :=
    fun _ parts => do return [← parts]
  /-- A scope opens that binds the given names. -/
  enter : List String → σ → σ := fun _ state => state
  /-- The innermost scope closes. -/
  leave : σ → σ := fun state => state
  /-- The innermost scope binds further names. -/
  bind : List String → σ → σ := fun _ state => state

/-- The names that a loop binds. A pattern after `case` adds the words before it. -/
def loopNames (modifiers : List Token) (pattern : Pattern) : List String :=
  if modifiers.any (·.isKeyword "case") then pattern.names ++ patternNames modifiers
  else pattern.names

/-- The names that an error handler binds: `error` if it has no pattern. -/
def catchNames (pattern : List Token) : List String :=
  if pattern.isEmpty then ["error"] else patternNames pattern

mutual

def Expr.transform (t : Transformer σ) (expr : Expr) : StateM σ Expr :=
  t.expr expr <| match expr with
    | .identifier token => pure (.identifier token)
    | .literal token => pure (.literal token)
    | .raw tokens => pure (.raw tokens)
    | .member base period name => do
      let base ← transformExpr? t base
      return .member base period name
    | .call callee arguments closure => do
      let callee ← callee.transform t
      let arguments ← arguments.transform t
      let closure ← transformClosure? t closure
      return .call callee arguments closure
    | .index base arguments => do
      let base ← base.transform t
      let arguments ← arguments.transform t
      return .index base arguments
    | .sequence operands operators => do
      let operands ← transformOperands t operands
      return .sequence operands operators
    | .prefixed operator operand => do
      let operand ← operand.transform t
      return .prefixed operator operand
    | .suffixed operand operator => do
      let operand ← operand.transform t
      return .suffixed operand operator
    | .trying keyword mark operand => do
      let operand ← operand.transform t
      return .trying keyword mark operand
    | .awaiting keyword operand => do
      let operand ← operand.transform t
      return .awaiting keyword operand
    | .tuple elements => do
      let elements ← elements.transform t
      return .tuple elements
    | .collection left elements right => do
      let elements ← transformElements t elements
      return .collection left elements right
    | .closure closure => do
      let closure ← closure.transform t
      return .closure closure
    | .specialized base arguments => do
      let base ← base.transform t
      return .specialized base arguments

def transformExpr? (t : Transformer σ) : Option Expr → StateM σ (Option Expr)
  | none => pure none
  | some expr => do
    let expr ← expr.transform t
    return some expr

def ArgumentList.transform (t : Transformer σ) : ArgumentList → StateM σ ArgumentList
  | ⟨opener, arguments, closer⟩ => do
    let arguments ← transformArguments t arguments
    return ⟨opener, arguments, closer⟩

def CallArguments.transform (t : Transformer σ) : CallArguments → StateM σ CallArguments
  | ⟨left, arguments, right⟩ => do
    let arguments ← transformArguments t arguments
    return ⟨left, arguments, right⟩

def transformArguments (t : Transformer σ) : List Argument → StateM σ (List Argument)
  | [] => pure []
  | ⟨label, value, comma⟩ :: later => do
    let value ← value.transform t
    let later ← transformArguments t later
    return ⟨label, value, comma⟩ :: later

def transformOperands (t : Transformer σ) : List Expr → StateM σ (List Expr)
  | [] => pure []
  | operand :: later => do
    let operand ← operand.transform t
    let later ← transformOperands t later
    return operand :: later

def transformElements (t : Transformer σ) :
    List CollectionElement → StateM σ (List CollectionElement)
  | [] => pure []
  | .value value comma :: later => do
    let value ← value.transform t
    let later ← transformElements t later
    return .value value comma :: later
  | .entry key colon value comma :: later => do
    let key ← key.transform t
    let value ← value.transform t
    let later ← transformElements t later
    return .entry key colon value comma :: later

def Closure.transform (t : Transformer σ) : Closure → StateM σ Closure
  | ⟨left, signature, statements, right⟩ =>
    t.closure ⟨left, signature, statements, right⟩ do
      let statements ← transformStatements t statements
      return ⟨left, signature, statements, right⟩

def transformClosure? (t : Transformer σ) : Option Closure → StateM σ (Option Closure)
  | none => pure none
  | some closure => do
    let closure ← closure.transform t
    return some closure

def Statement.transform (t : Transformer σ) : Statement → StateM σ Statement
  | ⟨item, semicolon⟩ => do
    let item ← item.transform t
    return ⟨item, semicolon⟩

def transformStatements (t : Transformer σ) : List Statement → StateM σ (List Statement)
  | [] => pure []
  | statement :: later => do
    let expanded ← t.statement statement (statement.transform t)
    let later ← transformStatements t later
    return expanded ++ later

def Item.transform (t : Transformer σ) : Item → StateM σ Item
  | .expr expr => do
    let expr ← expr.transform t
    return .expr expr
  | .decl decl => do
    let decl ← decl.transform t
    return .decl decl
  | .returning keyword value => do
    let value ← transformExpr? t value
    return .returning keyword value
  | .throwing keyword value => do
    let value ← value.transform t
    return .throwing keyword value
  | .conditional statement => do
    let statement ← statement.transform t
    return .conditional statement
  | .guarding keyword conditions elseKeyword body => do
    let conditions ← transformConditions t conditions
    let body ← body.transform t
    return .guarding keyword conditions elseKeyword body
  | .forIn keyword modifiers pattern type inKeyword sequence filter body => do
    let sequence ← sequence.transform t
    modify (t.enter (loopNames modifiers pattern))
    let filter ← transformClause? t filter
    let body ← body.transform t
    modify t.leave
    return .forIn keyword modifiers pattern type inKeyword sequence filter body
  | .whileLoop keyword conditions body => do
    modify (t.enter [])
    let conditions ← transformConditions t conditions
    let body ← body.transform t
    modify t.leave
    return .whileLoop keyword conditions body
  | .repeatLoop keyword body whileKeyword condition => do
    let body ← body.transform t
    let condition ← condition.transform t
    return .repeatLoop keyword body whileKeyword condition
  | .doCatch keyword throwsClause body catches => do
    let body ← body.transform t
    let catches ← transformCatches t catches
    return .doCatch keyword throwsClause body catches
  | .switching keyword subject left cases right => do
    let subject ← subject.transform t
    let cases ← transformCases t cases
    return .switching keyword subject left cases right
  | .deferring keyword body => do
    let body ← body.transform t
    return .deferring keyword body
  | .raw tokens => pure (.raw tokens)

def CodeBlock.transform (t : Transformer σ) : CodeBlock → StateM σ CodeBlock
  | ⟨left, statements, right⟩ => do
    modify (t.enter [])
    let statements ← transformStatements t statements
    modify t.leave
    return ⟨left, statements, right⟩

def transformBlock? (t : Transformer σ) : Option CodeBlock → StateM σ (Option CodeBlock)
  | none => pure none
  | some block => do
    let block ← block.transform t
    return some block

def IfStatement.transform (t : Transformer σ) : IfStatement → StateM σ IfStatement
  | ⟨keyword, conditions, body, alternative⟩ => do
    modify (t.enter [])
    let conditions ← transformConditions t conditions
    let body ← body.transform t
    modify t.leave
    let alternative ← alternative.transform t
    return ⟨keyword, conditions, body, alternative⟩

def ElseClause.transform (t : Transformer σ) : ElseClause → StateM σ ElseClause
  | .absent => pure .absent
  | .block keyword body => do
    let body ← body.transform t
    return .block keyword body
  | .chained keyword next => do
    let next ← next.transform t
    return .chained keyword next

def transformConditions (t : Transformer σ) : List Condition → StateM σ (List Condition)
  | [] => pure []
  | .expr expr comma :: later => do
    let expr ← expr.transform t
    let later ← transformConditions t later
    return .expr expr comma :: later
  | .binding specifier pattern type initializer comma :: later => do
    let initializer ← transformClause? t initializer
    modify (t.bind pattern.names)
    let later ← transformConditions t later
    return .binding specifier pattern type initializer comma :: later

def Clause.transform (t : Transformer σ) : Clause → StateM σ Clause
  | ⟨mark, value⟩ => do
    let value ← value.transform t
    return ⟨mark, value⟩

def transformClause? (t : Transformer σ) : Option Clause → StateM σ (Option Clause)
  | none => pure none
  | some clause => do
    let clause ← clause.transform t
    return some clause

def transformCatches (t : Transformer σ) : List CatchClause → StateM σ (List CatchClause)
  | [] => pure []
  | ⟨keyword, pattern, body⟩ :: later => do
    modify (t.enter (catchNames pattern))
    let body ← body.transform t
    modify t.leave
    let later ← transformCatches t later
    return ⟨keyword, pattern, body⟩ :: later

def transformCases (t : Transformer σ) : List SwitchCase → StateM σ (List SwitchCase)
  | [] => pure []
  | ⟨label, statements⟩ :: later => do
    let statements ← transformStatements t statements
    let later ← transformCases t later
    return ⟨label, statements⟩ :: later

def Decl.transform (t : Transformer σ) (decl : Decl) : StateM σ Decl :=
  t.decl decl <| match decl with
    | .importing decl => pure (.importing decl)
    | .raw decl => pure (.raw decl)
    | .type header members => do
      let members ← members.transform t
      return .type header members
    | .function header body => do
      let body ← transformBlock? t body
      return .function header body
    | .variable header bindings => do
      let bindings ← transformBindings t bindings
      return .variable header bindings
    | .initializer header body => do
      let body ← transformBlock? t body
      return .initializer header body
    | .finalizer header body => do
      let body ← transformBlock? t body
      return .finalizer header body

def transformBindings (t : Transformer σ) :
    List PatternBinding → StateM σ (List PatternBinding)
  | [] => pure []
  | ⟨pattern, type, initializer, accessor, comma⟩ :: later => do
    let initializer ← transformClause? t initializer
    let accessor ← transformBlock? t accessor
    let later ← transformBindings t later
    return ⟨pattern, type, initializer, accessor, comma⟩ :: later

end

/-- A transformer applied to the statements of a file. -/
def SourceFile.transform (t : Transformer σ) (file : SourceFile) : StateM σ SourceFile := do
  let statements ← transformStatements t file.statements
  return { file with statements }

end SuiteMigration
