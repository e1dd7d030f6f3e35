import SuiteMigration.Proofs.Tree.Binders

/-!
# Tokens in their scopes

The tokens of a body, in the order of the source. With each name that is an expression stands its
scope: whether a closure of the body is open there, and what binds names there.

A variable, a local function and the conditions of a guard bind names in the statements after them,
up to the end of the block. Other conditions bind names in the conditions after them and in the body
of their statement, a loop in its filter and its body, a handler in its body, and a closure in its
statements. The alternative of a statement lies outside of what its conditions bind. A declared
function, type, initializer or finalizer has scopes of its own, so its names are not looked at.

## Main definitions

* `Scope` - what surrounds a name
* `Site` - a token, with its scope if it is a name that is an expression
* `Expr.sites`, `CodeBlock.sites` - the tokens of a node in their scopes
* `sitesOfFunction` - the tokens of a function in their scopes
-/

namespace SuiteMigration

/-- What surrounds a name. -/
structure Scope where
  /-- The name stands inside a closure. -/
  insideClosure : Bool := false
  /-- What binds names around the name. -/
  binders : List Binder := []

namespace Scope

/-- The name is bound in the scope. -/
def Binds (scope : Scope) (name : String) : Prop :=
  ∃ binder ∈ scope.binders, binder.Binds name

/-- The scope with further binders. -/
def extend (binders : List Binder) (scope : Scope) : Scope :=
  { scope with binders := binders ++ scope.binders }

/-- The scope of the statements of a closure. -/
def ofClosure (signature : Option ClosureSignature) (scope : Scope) : Scope :=
  { scope.extend (signature.toList.map .closure) with insideClosure := true }

end Scope

/-- A token, with its scope if it is a name that is an expression. -/
inductive Site
  | reference (scope : Scope) (token : Token)
  | other (token : Token)

/-- The token of a site. -/
def Site.token : Site → Token
  | .reference _ token => token
  | .other token => token

/-- Tokens that are no names, or none that are expressions. -/
def unscoped (tokens : List Token) : List Site :=
  tokens.map .other

/-- The tokens among some sites that are no names, or none that are expressions. -/
def otherTokens (sites : List Site) : List Token :=
  sites.filterMap fun
    | .reference _ _ => none
    | .other token => some token

/-- Tokens in no scope are read back from their sites. -/
@[simp] theorem map_token_unscoped (tokens : List Token) :
    (unscoped tokens).map Site.token = tokens := by
  simp [unscoped, Function.comp_def, Site.token]

@[simp] theorem otherTokens_unscoped (tokens : List Token) :
    otherTokens (unscoped tokens) = tokens := by
  induction tokens with
  | nil => rfl
  | cons token later ih => exact congrArg (token :: ·) ih

/-- The tokens without a scope, of sites in a row. -/
@[simp] theorem otherTokens_append (first second : List Site) :
    otherTokens (first ++ second) = otherTokens first ++ otherTokens second :=
  List.filterMap_append

/-! ### What statements bind -/

/-- What some conditions bind. -/
def conditionBinders : List Condition → List Binder
  | [] => []
  | .expr _ _ :: later => conditionBinders later
  | .binding _ pattern _ _ _ :: later => .pattern pattern :: conditionBinders later

/-- What the bindings of a variable declaration bind. -/
def bindingBinders (bindings : List PatternBinding) : List Binder :=
  bindings.map fun binding => .pattern binding.pattern

/-- What a declaration binds in the statements after it. -/
def Decl.binders : Decl → List Binder
  | .variable _ bindings => bindingBinders bindings
  | .function header _ => [.function header.name]
  | _ => []

/-- What a statement binds in the statements after it. -/
def Item.binders : Item → List Binder
  | .decl declared => declared.binders
  | .guarding _ conditions _ _ => conditionBinders conditions
  | _ => []

/-! ### The sites of a body in a scope -/

mutual

def Expr.sites (scope : Scope) : Expr → List Site
  | .identifier token => [.reference scope token]
  | .literal token => unscoped [token]
  | .member base period name => sitesOfExpr? scope base ++ unscoped [period, name]
  | .call callee arguments closure =>
    callee.sites scope ++ arguments.sites scope ++ sitesOfClosure? scope closure
  | .index base arguments => base.sites scope ++ arguments.sites scope
  | .sequence operands operators => sitesOfOperands scope operands operators
  | .prefixed operator operand => unscoped [operator] ++ operand.sites scope
  | .suffixed operand operator => operand.sites scope ++ unscoped [operator]
  | .trying keyword mark operand => unscoped (keyword :: Node.tokens mark) ++ operand.sites scope
  | .awaiting keyword operand => unscoped [keyword] ++ operand.sites scope
  | .tuple elements => elements.sites scope
  | .collection left elements right =>
    unscoped [left] ++ sitesOfElements scope elements ++ unscoped [right]
  | .closure closure => closure.sites scope
  | .specialized base arguments => base.sites scope ++ unscoped arguments
  | .raw tokens => unscoped tokens

def sitesOfExpr? (scope : Scope) : Option Expr → List Site
  | none => []
  | some expr => expr.sites scope

def ArgumentList.sites (scope : Scope) : ArgumentList → List Site
  | ⟨opener, arguments, closer⟩ =>
    unscoped [opener] ++ sitesOfArguments scope arguments ++ unscoped [closer]

def CallArguments.sites (scope : Scope) : CallArguments → List Site
  | ⟨left, arguments, right⟩ =>
    unscoped (Node.tokens left) ++ sitesOfArguments scope arguments ++ unscoped (Node.tokens right)

def sitesOfArguments (scope : Scope) : List Argument → List Site
  | [] => []
  | ⟨label, value, comma⟩ :: later =>
    unscoped (Node.tokens label) ++ value.sites scope ++ unscoped (Node.tokens comma) ++
      sitesOfArguments scope later

def sitesOfOperands (scope : Scope) : List Expr → List Token → List Site
  | [], _ => []
  | operand :: later, operators =>
    operand.sites scope ++ unscoped (Node.tokens operators.head?) ++
      sitesOfOperands scope later operators.tail

def sitesOfElements (scope : Scope) : List CollectionElement → List Site
  | [] => []
  | .value value comma :: later =>
    value.sites scope ++ unscoped (Node.tokens comma) ++ sitesOfElements scope later
  | .entry key colon value comma :: later =>
    key.sites scope ++ (unscoped [colon] ++ value.sites scope) ++ unscoped (Node.tokens comma) ++
      sitesOfElements scope later

def Closure.sites (scope : Scope) : Closure → List Site
  | ⟨left, signature, statements, right⟩ =>
    unscoped (left :: Node.tokens signature) ++
      sitesOfStatements (scope.ofClosure signature) statements ++ unscoped [right]

def sitesOfClosure? (scope : Scope) : Option Closure → List Site
  | none => []
  | some closure => closure.sites scope

def Statement.sites (scope : Scope) : Statement → List Site
  | ⟨item, semicolon⟩ => item.sites scope ++ unscoped (Node.tokens semicolon)

def sitesOfStatements (scope : Scope) : List Statement → List Site
  | [] => []
  | statement :: later =>
    statement.sites scope ++ sitesOfStatements (scope.extend statement.item.binders) later

def Item.sites (scope : Scope) : Item → List Site
  | .expr expr => expr.sites scope
  | .decl decl => decl.sites scope
  | .returning keyword value => unscoped [keyword] ++ sitesOfExpr? scope value
  | .throwing keyword value => unscoped [keyword] ++ value.sites scope
  | .conditional statement => statement.sites scope
  | .guarding keyword conditions elseKeyword body =>
    unscoped [keyword] ++ sitesOfConditions scope conditions ++
      (unscoped [elseKeyword] ++ body.sites scope)
  | .forIn keyword modifiers pattern type inKeyword sequence filter body =>
    unscoped (keyword :: modifiers ++ Node.tokens pattern ++ Node.tokens type) ++
      ((unscoped [inKeyword] ++ sequence.sites scope) ++
        (sitesOfClause? (scope.extend [.pattern pattern]) filter ++
          body.sites (scope.extend [.pattern pattern])))
  | .whileLoop keyword conditions body =>
    unscoped [keyword] ++ sitesOfConditions scope conditions ++
      body.sites (scope.extend (conditionBinders conditions))
  | .repeatLoop keyword body whileKeyword condition =>
    unscoped [keyword] ++ body.sites scope ++ (unscoped [whileKeyword] ++ condition.sites scope)
  | .doCatch keyword throwsClause body catches =>
    unscoped (keyword :: throwsClause) ++ body.sites scope ++ sitesOfCatches scope catches
  | .switching keyword subject left cases right =>
    unscoped [keyword] ++ subject.sites scope ++ (unscoped [left] ++ sitesOfCases scope cases) ++
      unscoped [right]
  | .deferring keyword body => unscoped [keyword] ++ body.sites scope
  | .raw tokens => unscoped tokens

def CodeBlock.sites (scope : Scope) : CodeBlock → List Site
  | ⟨left, statements, right⟩ =>
    unscoped [left] ++ sitesOfStatements scope statements ++ unscoped [right]

def sitesOfBlock? (scope : Scope) : Option CodeBlock → List Site
  | none => []
  | some block => block.sites scope

def IfStatement.sites (scope : Scope) : IfStatement → List Site
  | ⟨keyword, conditions, body, alternative⟩ =>
    unscoped [keyword] ++ sitesOfConditions scope conditions ++
      body.sites (scope.extend (conditionBinders conditions)) ++ alternative.sites scope

def ElseClause.sites (scope : Scope) : ElseClause → List Site
  | .absent => []
  | .block keyword body => unscoped [keyword] ++ body.sites scope
  | .chained keyword next => unscoped [keyword] ++ next.sites scope

def sitesOfConditions (scope : Scope) : List Condition → List Site
  | [] => []
  | .expr expr comma :: later =>
    expr.sites scope ++ unscoped (Node.tokens comma) ++ sitesOfConditions scope later
  | .binding specifier pattern type initializer comma :: later =>
    unscoped (specifier :: Node.tokens pattern ++ Node.tokens type) ++
      sitesOfClause? scope initializer ++ unscoped (Node.tokens comma) ++
      sitesOfConditions (scope.extend [.pattern pattern]) later

def Clause.sites (scope : Scope) : Clause → List Site
  | ⟨mark, value⟩ => unscoped [mark] ++ value.sites scope

def sitesOfClause? (scope : Scope) : Option Clause → List Site
  | none => []
  | some clause => clause.sites scope

def sitesOfCatches (scope : Scope) : List CatchClause → List Site
  | [] => []
  | ⟨keyword, pattern, body⟩ :: later =>
    unscoped (keyword :: pattern) ++ body.sites (scope.extend [.handler pattern]) ++
      sitesOfCatches scope later

def sitesOfCases (scope : Scope) : List SwitchCase → List Site
  | [] => []
  | ⟨label, statements⟩ :: later =>
    unscoped label ++ sitesOfStatements scope statements ++ sitesOfCases scope later

def Decl.sites (scope : Scope) : Decl → List Site
  | .variable header bindings => unscoped (Node.tokens header) ++ sitesOfBindings scope bindings
  | decl => unscoped decl.tokens

def sitesOfBindings (scope : Scope) : List PatternBinding → List Site
  | [] => []
  | ⟨pattern, type, initializer, accessor, comma⟩ :: later =>
    unscoped (Node.tokens pattern ++ Node.tokens type) ++ sitesOfClause? scope initializer ++
      sitesOfBlock? scope accessor ++ unscoped (Node.tokens comma) ++ sitesOfBindings scope later

end

/-- The sites of a function, with its parameters around its body. -/
def sitesOfFunction (header : FunctionHeader) (body : Option CodeBlock) : List Site :=
  unscoped (Node.tokens header) ++
    sitesOfBlock? { binders := [.parameters header.parameters] } body

end SuiteMigration
