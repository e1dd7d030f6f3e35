import SuiteMigration.Tree.Names

/-!
# Walking a tree

An analysis sees a tree as the list of what it meets on the way: every expression, closure and
declaration before its parts, and the names that are bound at the place where they come into scope.
Raw runs of tokens, parameter lists and headers are not entered.

A walk can stay inside one body. It then meets the declarations of functions and types, and does
not enter them.

## Main definitions

* `Visit` - what is met
* `Extent` - whether the bodies of declarations are entered
* `walkStatements` - what is met in a list of statements
-/

namespace SuiteMigration

/-- Something met on a walk. -/
inductive Visit
  | expr (expr : Expr)
  | closure (closure : Closure)
  | decl (decl : Decl)
  /-- Names come into scope. -/
  | binds (names : List String)

/-- How far a walk goes. -/
inductive Extent
  /-- Into every body. -/
  | everywhere
  /-- Not into the bodies of functions, types, initializers and finalizers. -/
  | oneBody
  deriving DecidableEq, Repr

mutual

def Expr.walk (extent : Extent) (expr : Expr) : List Visit :=
  .expr expr :: match expr with
    | .identifier _ | .literal _ | .raw _ => []
    | .member base _ _ => walkExpr? extent base
    | .call callee arguments closure =>
      callee.walk extent ++ arguments.walk extent ++ walkClosure? extent closure
    | .index base arguments => base.walk extent ++ arguments.walk extent
    | .sequence operands _ => walkOperands extent operands
    | .prefixed _ operand => operand.walk extent
    | .suffixed operand _ => operand.walk extent
    | .trying _ _ operand => operand.walk extent
    | .awaiting _ operand => operand.walk extent
    | .tuple elements => elements.walk extent
    | .collection _ elements _ => walkElements extent elements
    | .closure closure => closure.walk extent
    | .specialized base _ => base.walk extent

def walkExpr? (extent : Extent) : Option Expr → List Visit
  | none => []
  | some expr => expr.walk extent

def ArgumentList.walk (extent : Extent) : ArgumentList → List Visit
  | ⟨_, arguments, _⟩ => walkArguments extent arguments

def CallArguments.walk (extent : Extent) : CallArguments → List Visit
  | ⟨_, arguments, _⟩ => walkArguments extent arguments

def walkArguments (extent : Extent) : List Argument → List Visit
  | [] => []
  | ⟨_, value, _⟩ :: later => value.walk extent ++ walkArguments extent later

def walkOperands (extent : Extent) : List Expr → List Visit
  | [] => []
  | operand :: later => operand.walk extent ++ walkOperands extent later

def walkElements (extent : Extent) : List CollectionElement → List Visit
  | [] => []
  | .value value _ :: later => value.walk extent ++ walkElements extent later
  | .entry key _ value _ :: later =>
    key.walk extent ++ value.walk extent ++ walkElements extent later

def Closure.walk (extent : Extent) : Closure → List Visit
  | ⟨left, signature, statements, right⟩ =>
    let closure : Closure := ⟨left, signature, statements, right⟩
    .closure closure :: .binds closure.parameterNames :: walkStatements extent statements

def walkClosure? (extent : Extent) : Option Closure → List Visit
  | none => []
  | some closure => closure.walk extent

def Statement.walk (extent : Extent) : Statement → List Visit
  | ⟨item, _⟩ => item.walk extent

def walkStatements (extent : Extent) : List Statement → List Visit
  | [] => []
  | statement :: later => statement.walk extent ++ walkStatements extent later

def Item.walk (extent : Extent) : Item → List Visit
  | .expr expr => expr.walk extent
  | .decl decl => decl.walk extent
  | .returning _ value => walkExpr? extent value
  | .throwing _ value => value.walk extent
  | .conditional statement => statement.walk extent
  | .guarding _ conditions _ body => walkConditions extent conditions ++ body.walk extent
  | .forIn _ _ pattern _ _ sequence filter body =>
    .binds pattern.names :: sequence.walk extent ++ walkClause? extent filter ++ body.walk extent
  | .whileLoop _ conditions body => walkConditions extent conditions ++ body.walk extent
  | .repeatLoop _ body _ condition => body.walk extent ++ condition.walk extent
  | .doCatch _ _ body catches => body.walk extent ++ walkCatches extent catches
  | .switching _ subject _ cases _ => subject.walk extent ++ walkCases extent cases
  | .deferring _ body => body.walk extent
  | .raw _ => []

def CodeBlock.walk (extent : Extent) : CodeBlock → List Visit
  | ⟨_, statements, _⟩ => walkStatements extent statements

def walkBlock? (extent : Extent) : Option CodeBlock → List Visit
  | none => []
  | some block => block.walk extent

def IfStatement.walk (extent : Extent) : IfStatement → List Visit
  | ⟨_, conditions, body, alternative⟩ =>
    walkConditions extent conditions ++ body.walk extent ++ alternative.walk extent

def ElseClause.walk (extent : Extent) : ElseClause → List Visit
  | .absent => []
  | .block _ body => body.walk extent
  | .chained _ next => next.walk extent

def walkConditions (extent : Extent) : List Condition → List Visit
  | [] => []
  | .expr expr _ :: later => expr.walk extent ++ walkConditions extent later
  | .binding _ pattern _ initializer _ :: later =>
    walkClause? extent initializer ++ .binds pattern.names :: walkConditions extent later

def Clause.walk (extent : Extent) : Clause → List Visit
  | ⟨_, value⟩ => value.walk extent

def walkClause? (extent : Extent) : Option Clause → List Visit
  | none => []
  | some clause => clause.walk extent

def walkCatches (extent : Extent) : List CatchClause → List Visit
  | [] => []
  | ⟨_, _, body⟩ :: later => body.walk extent ++ walkCatches extent later

def walkCases (extent : Extent) : List SwitchCase → List Visit
  | [] => []
  | ⟨_, statements⟩ :: later => walkStatements extent statements ++ walkCases extent later

def Decl.walk (extent : Extent) (decl : Decl) : List Visit :=
  .decl decl :: match decl with
    | .importing _ | .raw _ => []
    | .type _ members => if extent = .everywhere then members.walk extent else []
    | .function header body =>
      .binds [header.name.text] :: if extent = .everywhere then walkBlock? extent body else []
    | .variable _ bindings => walkBindings extent bindings ++ [.binds (bindingNames bindings)]
    | .initializer _ body => if extent = .everywhere then walkBlock? extent body else []
    | .finalizer _ body => if extent = .everywhere then walkBlock? extent body else []

def walkBindings (extent : Extent) : List PatternBinding → List Visit
  | [] => []
  | ⟨_, _, initializer, accessor, _⟩ :: later =>
    walkClause? extent initializer ++ walkBlock? extent accessor ++ walkBindings extent later

end

end SuiteMigration
