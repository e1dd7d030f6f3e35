import SuiteMigration.Tree.Tokens

/-!
# Tokens in their places

The tokens of a body, in the order of the source, each with the answer to one question: is it a name
that is an expression, and does it stand inside a closure of the body? A declared function, type,
initializer or finalizer has a body of its own, so nothing in it stands inside a closure of the body
around it.

## Main definitions

* `Spot` - a token in its place
* `Expr.spots`, `CodeBlock.spots` - the tokens of a node in their places
* `spotsOfFunction` - the tokens of a function in their places
-/

namespace SuiteMigration

/-- A token in its place in a body. -/
inductive Spot
  /-- A name that is an expression inside a closure. -/
  | reference (token : Token)
  /-- Any other token. -/
  | other (token : Token)
  deriving DecidableEq, Repr

namespace Spot

/-- The token in a place. -/
def token : Spot → Token
  | .reference token => token
  | .other token => token

/-- The place of a name that is an expression, given whether it stands inside a closure. -/
def ofName (inside : Bool) (token : Token) : Spot :=
  if inside then .reference token else .other token

@[simp] theorem token_ofName (inside : Bool) (token : Token) :
    (ofName inside token).token = token := by
  cases inside <;> rfl

end Spot

/-- The places of tokens that are no names inside closures. -/
def others (tokens : List Token) : List Spot :=
  tokens.map .other

/-- Other tokens stay as they are. -/
@[simp] theorem map_token_others (tokens : List Token) :
    (others tokens).map Spot.token = tokens := by
  simp [others, Function.comp_def, Spot.token]

/-! ### The places of a body, given whether it stands inside a closure -/

mutual

def Expr.spots (inside : Bool) : Expr → List Spot
  | .identifier token => [.ofName inside token]
  | .literal token => others [token]
  | .member base period name => spotsOfExpr? inside base ++ others [period, name]
  | .call callee arguments closure =>
    callee.spots inside ++ arguments.spots inside ++ spotsOfClosure? closure
  | .index base arguments => base.spots inside ++ arguments.spots inside
  | .sequence operands operators => spotsOfOperands inside operands operators
  | .prefixed operator operand => others [operator] ++ operand.spots inside
  | .suffixed operand operator => operand.spots inside ++ others [operator]
  | .trying keyword mark operand => others (keyword :: Node.tokens mark) ++ operand.spots inside
  | .awaiting keyword operand => others [keyword] ++ operand.spots inside
  | .tuple elements => elements.spots inside
  | .collection left elements right =>
    others [left] ++ spotsOfElements inside elements ++ others [right]
  | .closure closure => closure.spots
  | .specialized base arguments => base.spots inside ++ others arguments
  | .raw tokens => others tokens

def spotsOfExpr? (inside : Bool) : Option Expr → List Spot
  | none => []
  | some expr => expr.spots inside

def ArgumentList.spots (inside : Bool) : ArgumentList → List Spot
  | ⟨opener, arguments, closer⟩ =>
    others [opener] ++ spotsOfArguments inside arguments ++ others [closer]

def CallArguments.spots (inside : Bool) : CallArguments → List Spot
  | ⟨left, arguments, right⟩ =>
    others (Node.tokens left) ++ spotsOfArguments inside arguments ++ others (Node.tokens right)

def spotsOfArguments (inside : Bool) : List Argument → List Spot
  | [] => []
  | ⟨label, value, comma⟩ :: later =>
    others (Node.tokens label) ++ value.spots inside ++ others (Node.tokens comma) ++
      spotsOfArguments inside later

def spotsOfOperands (inside : Bool) : List Expr → List Token → List Spot
  | [], _ => []
  | operand :: later, operators =>
    operand.spots inside ++ others (Node.tokens operators.head?) ++
      spotsOfOperands inside later operators.tail

def spotsOfElements (inside : Bool) : List CollectionElement → List Spot
  | [] => []
  | .value value comma :: later =>
    value.spots inside ++ others (Node.tokens comma) ++ spotsOfElements inside later
  | .entry key colon value comma :: later =>
    key.spots inside ++ (others [colon] ++ value.spots inside) ++ others (Node.tokens comma) ++
      spotsOfElements inside later

def Closure.spots : Closure → List Spot
  | ⟨left, signature, statements, right⟩ =>
    others (left :: Node.tokens signature) ++ spotsOfStatements true statements ++ others [right]

def spotsOfClosure? : Option Closure → List Spot
  | none => []
  | some closure => closure.spots

def Statement.spots (inside : Bool) : Statement → List Spot
  | ⟨item, semicolon⟩ => item.spots inside ++ others (Node.tokens semicolon)

def spotsOfStatements (inside : Bool) : List Statement → List Spot
  | [] => []
  | statement :: later => statement.spots inside ++ spotsOfStatements inside later

def Item.spots (inside : Bool) : Item → List Spot
  | .expr expr => expr.spots inside
  | .decl decl => decl.spots inside
  | .returning keyword value => others [keyword] ++ spotsOfExpr? inside value
  | .throwing keyword value => others [keyword] ++ value.spots inside
  | .conditional statement => statement.spots inside
  | .guarding keyword conditions elseKeyword body =>
    others [keyword] ++ spotsOfConditions inside conditions ++
      (others [elseKeyword] ++ body.spots inside)
  | .forIn keyword modifiers pattern type inKeyword sequence filter body =>
    others (keyword :: modifiers ++ Node.tokens pattern ++ Node.tokens type) ++
      (others [inKeyword] ++ sequence.spots inside) ++ spotsOfClause? inside filter ++
      body.spots inside
  | .whileLoop keyword conditions body =>
    others [keyword] ++ spotsOfConditions inside conditions ++ body.spots inside
  | .repeatLoop keyword body whileKeyword condition =>
    others [keyword] ++ body.spots inside ++ (others [whileKeyword] ++ condition.spots inside)
  | .doCatch keyword throwsClause body catches =>
    others (keyword :: throwsClause) ++ body.spots inside ++ spotsOfCatches inside catches
  | .switching keyword subject left cases right =>
    others [keyword] ++ subject.spots inside ++ (others [left] ++ spotsOfCases inside cases) ++
      others [right]
  | .deferring keyword body => others [keyword] ++ body.spots inside
  | .raw tokens => others tokens

def CodeBlock.spots (inside : Bool) : CodeBlock → List Spot
  | ⟨left, statements, right⟩ =>
    others [left] ++ spotsOfStatements inside statements ++ others [right]

def spotsOfBlock? (inside : Bool) : Option CodeBlock → List Spot
  | none => []
  | some block => block.spots inside

def IfStatement.spots (inside : Bool) : IfStatement → List Spot
  | ⟨keyword, conditions, body, alternative⟩ =>
    others [keyword] ++ spotsOfConditions inside conditions ++ body.spots inside ++
      alternative.spots inside

def ElseClause.spots (inside : Bool) : ElseClause → List Spot
  | .absent => []
  | .block keyword body => others [keyword] ++ body.spots inside
  | .chained keyword next => others [keyword] ++ next.spots inside

def spotsOfConditions (inside : Bool) : List Condition → List Spot
  | [] => []
  | .expr expr comma :: later =>
    expr.spots inside ++ others (Node.tokens comma) ++ spotsOfConditions inside later
  | .binding specifier pattern type initializer comma :: later =>
    others (specifier :: Node.tokens pattern ++ Node.tokens type) ++
      spotsOfClause? inside initializer ++ others (Node.tokens comma) ++
      spotsOfConditions inside later

def Clause.spots (inside : Bool) : Clause → List Spot
  | ⟨mark, value⟩ => others [mark] ++ value.spots inside

def spotsOfClause? (inside : Bool) : Option Clause → List Spot
  | none => []
  | some clause => clause.spots inside

def spotsOfCatches (inside : Bool) : List CatchClause → List Spot
  | [] => []
  | ⟨keyword, pattern, body⟩ :: later =>
    others (keyword :: pattern) ++ body.spots inside ++ spotsOfCatches inside later

def spotsOfCases (inside : Bool) : List SwitchCase → List Spot
  | [] => []
  | ⟨label, statements⟩ :: later =>
    others label ++ spotsOfStatements inside statements ++ spotsOfCases inside later

def Decl.spots (inside : Bool) : Decl → List Spot
  | .variable header bindings => others (Node.tokens header) ++ spotsOfBindings inside bindings
  | decl => others decl.tokens

def spotsOfBindings (inside : Bool) : List PatternBinding → List Spot
  | [] => []
  | ⟨pattern, type, initializer, accessor, comma⟩ :: later =>
    others (Node.tokens pattern ++ Node.tokens type) ++ spotsOfClause? inside initializer ++
      spotsOfBlock? inside accessor ++ others (Node.tokens comma) ++ spotsOfBindings inside later

end

/-- The places of a function, which stands inside no closure. -/
def spotsOfFunction (header : FunctionHeader) (body : Option CodeBlock) : List Spot :=
  others (Node.tokens header) ++ spotsOfBlock? false body

end SuiteMigration
