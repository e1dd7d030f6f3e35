import SuiteMigration.Tree

/-!
# The tokens of a tree

Every node has a list of tokens, in the order of the source. Reading a node goes through that list,
and so does every change that only touches tokens: `fill` puts the tokens of a list into the places
of a node one after the other, and all edits of trivia are edits of the list followed by `fill`.

## Main definitions

* `Node` - the class of things that hold tokens in an order
* `Node.tokens` - the tokens of a node
* `Node.fill` - the node with its places filled from a supply of tokens
-/

namespace SuiteMigration

/-- A supply of tokens from which the places of a node are filled. -/
abbrev Supply := StateM (List Token)

/-- The next token of the supply, or the old one if the supply has run out. -/
def Supply.next (old : Token) : Supply Token
  | [] => (old, [])
  | token :: later => (token, later)

/-- Something that holds tokens in the order of the source. -/
class Node (α : Type) where
  /-- The tokens in the order of the source. -/
  tokens : α → List Token
  /-- The same node with its places filled from a supply of tokens. -/
  fill : α → Supply α

/-! ### Tokens, lists and options -/

instance : Node Token where
  tokens token := [token]
  fill token := Supply.next token

instance [Node α] : Node (List α) where
  tokens nodes := nodes.flatMap Node.tokens
  fill nodes := nodes.mapM Node.fill

instance [Node α] : Node (Option α) where
  tokens
    | none => []
    | some node => Node.tokens node
  fill
    | none => pure none
    | some node => some <$> Node.fill node

/-! ### Parts that hold tokens only -/

instance : Node Attribute where
  tokens node := node.atSign :: node.name :: node.arguments
  fill node := do
    let atSign ← Node.fill node.atSign
    let name ← Node.fill node.name
    let arguments ← Node.fill node.arguments
    return { atSign, name, arguments }

instance : Node Modifier where
  tokens node := node.name :: node.detail
  fill node := do
    let name ← Node.fill node.name
    let detail ← Node.fill node.detail
    return { name, detail }

instance : Node TypeAnnotation where
  tokens node := node.colon :: node.type
  fill node := do
    let colon ← Node.fill node.colon
    let type ← Node.fill node.type
    return { colon, type }

instance : Node Pattern where
  tokens
    | .identifier token => [token]
    | .raw tokens => tokens
  fill
    | .identifier token => .identifier <$> Node.fill token
    | .raw tokens => .raw <$> Node.fill tokens

instance : Node Label where
  tokens node := [node.name, node.colon]
  fill node := do
    let name ← Node.fill node.name
    let colon ← Node.fill node.colon
    return { name, colon }

instance : Node ClosureSignature where
  tokens node := node.tokens ++ [node.inKeyword]
  fill node := do
    let tokens ← Node.fill node.tokens
    let inKeyword ← Node.fill node.inKeyword
    return { tokens, inKeyword }

instance : Node ParameterClause where
  tokens node := node.leftParen :: node.parameters ++ [node.rightParen]
  fill node := do
    let leftParen ← Node.fill node.leftParen
    let parameters ← Node.fill node.parameters
    let rightParen ← Node.fill node.rightParen
    return { leftParen, parameters, rightParen }

instance : Node InheritedType where
  tokens node := node.tokens ++ Node.tokens node.comma
  fill node := do
    let tokens ← Node.fill node.tokens
    let comma ← Node.fill node.comma
    return { tokens, comma }

instance : Node InheritanceClause where
  tokens node := node.colon :: Node.tokens node.types
  fill node := do
    let colon ← Node.fill node.colon
    let types ← Node.fill node.types
    return { colon, types }

instance : Node ImportDecl where
  tokens node :=
    Node.tokens node.attributes ++ Node.tokens node.modifiers ++ node.keyword ::
      Node.tokens node.kind ++ node.path
  fill node := do
    let attributes ← Node.fill node.attributes
    let modifiers ← Node.fill node.modifiers
    let keyword ← Node.fill node.keyword
    let kind ← Node.fill node.kind
    let path ← Node.fill node.path
    return { attributes, modifiers, keyword, kind, path }

instance : Node RawDecl where
  tokens node := Node.tokens node.attributes ++ Node.tokens node.modifiers ++ node.tokens
  fill node := do
    let attributes ← Node.fill node.attributes
    let modifiers ← Node.fill node.modifiers
    let tokens ← Node.fill node.tokens
    return { attributes, modifiers, tokens }

instance : Node TypeHeader where
  tokens node :=
    Node.tokens node.attributes ++ Node.tokens node.modifiers ++ node.keyword :: node.name ::
      node.genericParameters ++ Node.tokens node.inheritance ++ node.whereClause
  fill node := do
    let attributes ← Node.fill node.attributes
    let modifiers ← Node.fill node.modifiers
    let keyword ← Node.fill node.keyword
    let name ← Node.fill node.name
    let genericParameters ← Node.fill node.genericParameters
    let inheritance ← Node.fill node.inheritance
    let whereClause ← Node.fill node.whereClause
    return { attributes, modifiers, keyword, name, genericParameters, inheritance, whereClause }

instance : Node FunctionHeader where
  tokens node :=
    Node.tokens node.attributes ++ Node.tokens node.modifiers ++ node.keyword :: node.name ::
      node.genericParameters ++ Node.tokens node.parameters ++ node.signature
  fill node := do
    let attributes ← Node.fill node.attributes
    let modifiers ← Node.fill node.modifiers
    let keyword ← Node.fill node.keyword
    let name ← Node.fill node.name
    let genericParameters ← Node.fill node.genericParameters
    let parameters ← Node.fill node.parameters
    let signature ← Node.fill node.signature
    return { attributes, modifiers, keyword, name, genericParameters, parameters, signature }

instance : Node InitializerHeader where
  tokens node :=
    Node.tokens node.attributes ++ Node.tokens node.modifiers ++ node.keyword ::
      Node.tokens node.optionalMark ++ node.genericParameters ++ Node.tokens node.parameters ++
      node.signature
  fill node := do
    let attributes ← Node.fill node.attributes
    let modifiers ← Node.fill node.modifiers
    let keyword ← Node.fill node.keyword
    let optionalMark ← Node.fill node.optionalMark
    let genericParameters ← Node.fill node.genericParameters
    let parameters ← Node.fill node.parameters
    let signature ← Node.fill node.signature
    return { attributes, modifiers, keyword, optionalMark, genericParameters, parameters, signature }

instance : Node KeywordHeader where
  tokens node := Node.tokens node.attributes ++ Node.tokens node.modifiers ++ [node.keyword]
  fill node := do
    let attributes ← Node.fill node.attributes
    let modifiers ← Node.fill node.modifiers
    let keyword ← Node.fill node.keyword
    return { attributes, modifiers, keyword }

/-! ### Reading the tokens of expressions, statements and declarations -/

mutual

def Expr.tokens : Expr → List Token
  | .identifier token => [token]
  | .literal token => [token]
  | .member base period name => tokensOfExpr? base ++ [period, name]
  | .call callee arguments closure =>
    callee.tokens ++ arguments.tokens ++ tokensOfClosure? closure
  | .index base arguments => base.tokens ++ arguments.tokens
  | .sequence operands operators => tokensOfOperands operands operators
  | .prefixed operator operand => operator :: operand.tokens
  | .suffixed operand operator => operand.tokens ++ [operator]
  | .trying keyword mark operand => keyword :: Node.tokens mark ++ operand.tokens
  | .awaiting keyword operand => keyword :: operand.tokens
  | .tuple elements => elements.tokens
  | .collection left elements right => left :: tokensOfElements elements ++ [right]
  | .closure closure => closure.tokens
  | .specialized base arguments => base.tokens ++ arguments
  | .raw tokens => tokens

def tokensOfExpr? : Option Expr → List Token
  | none => []
  | some expr => expr.tokens

def ArgumentList.tokens : ArgumentList → List Token
  | ⟨opener, arguments, closer⟩ => opener :: tokensOfArguments arguments ++ [closer]

def CallArguments.tokens : CallArguments → List Token
  | ⟨left, arguments, right⟩ =>
    Node.tokens left ++ tokensOfArguments arguments ++ Node.tokens right

def Argument.tokens : Argument → List Token
  | ⟨label, value, comma⟩ => Node.tokens label ++ value.tokens ++ Node.tokens comma

def tokensOfArguments : List Argument → List Token
  | [] => []
  | argument :: later => argument.tokens ++ tokensOfArguments later

/-- Each operand is followed by its operator, if it has one. Further operators belong to no operand
and are left out. -/
def tokensOfOperands : List Expr → List Token → List Token
  | [], _ => []
  | operand :: later, operators =>
    operand.tokens ++ Node.tokens operators.head? ++ tokensOfOperands later operators.tail

def CollectionElement.tokens : CollectionElement → List Token
  | .value value comma => value.tokens ++ Node.tokens comma
  | .entry key colon value comma => key.tokens ++ colon :: value.tokens ++ Node.tokens comma

def tokensOfElements : List CollectionElement → List Token
  | [] => []
  | element :: later => element.tokens ++ tokensOfElements later

def Closure.tokens : Closure → List Token
  | ⟨left, signature, statements, right⟩ =>
    left :: Node.tokens signature ++ tokensOfStatements statements ++ [right]

def tokensOfClosure? : Option Closure → List Token
  | none => []
  | some closure => closure.tokens

def Statement.tokens : Statement → List Token
  | ⟨item, semicolon⟩ => item.tokens ++ Node.tokens semicolon

def tokensOfStatements : List Statement → List Token
  | [] => []
  | statement :: later => statement.tokens ++ tokensOfStatements later

def Item.tokens : Item → List Token
  | .expr expr => expr.tokens
  | .decl decl => decl.tokens
  | .returning keyword value => keyword :: tokensOfExpr? value
  | .throwing keyword value => keyword :: value.tokens
  | .conditional statement => statement.tokens
  | .guarding keyword conditions elseKeyword body =>
    keyword :: tokensOfConditions conditions ++ elseKeyword :: body.tokens
  | .forIn keyword modifiers pattern type inKeyword sequence filter body =>
    keyword :: modifiers ++ Node.tokens pattern ++ Node.tokens type ++ inKeyword ::
      sequence.tokens ++ tokensOfClause? filter ++ body.tokens
  | .whileLoop keyword conditions body => keyword :: tokensOfConditions conditions ++ body.tokens
  | .repeatLoop keyword body whileKeyword condition =>
    keyword :: body.tokens ++ whileKeyword :: condition.tokens
  | .doCatch keyword throwsClause body catches =>
    keyword :: throwsClause ++ body.tokens ++ tokensOfCatches catches
  | .switching keyword subject left cases right =>
    keyword :: subject.tokens ++ left :: tokensOfCases cases ++ [right]
  | .deferring keyword body => keyword :: body.tokens
  | .raw tokens => tokens

def CodeBlock.tokens : CodeBlock → List Token
  | ⟨left, statements, right⟩ => left :: tokensOfStatements statements ++ [right]

def tokensOfBlock? : Option CodeBlock → List Token
  | none => []
  | some block => block.tokens

def IfStatement.tokens : IfStatement → List Token
  | ⟨keyword, conditions, body, alternative⟩ =>
    keyword :: tokensOfConditions conditions ++ body.tokens ++ alternative.tokens

def ElseClause.tokens : ElseClause → List Token
  | .absent => []
  | .block keyword body => keyword :: body.tokens
  | .chained keyword next => keyword :: next.tokens

def Condition.tokens : Condition → List Token
  | .expr expr comma => expr.tokens ++ Node.tokens comma
  | .binding specifier pattern type initializer comma =>
    specifier :: Node.tokens pattern ++ Node.tokens type ++ tokensOfClause? initializer ++
      Node.tokens comma

def tokensOfConditions : List Condition → List Token
  | [] => []
  | condition :: later => condition.tokens ++ tokensOfConditions later

def Clause.tokens : Clause → List Token
  | ⟨mark, value⟩ => mark :: value.tokens

def tokensOfClause? : Option Clause → List Token
  | none => []
  | some clause => clause.tokens

def CatchClause.tokens : CatchClause → List Token
  | ⟨keyword, pattern, body⟩ => keyword :: pattern ++ body.tokens

def tokensOfCatches : List CatchClause → List Token
  | [] => []
  | clause :: later => clause.tokens ++ tokensOfCatches later

def SwitchCase.tokens : SwitchCase → List Token
  | ⟨label, statements⟩ => label ++ tokensOfStatements statements

def tokensOfCases : List SwitchCase → List Token
  | [] => []
  | branch :: later => branch.tokens ++ tokensOfCases later

def Decl.tokens : Decl → List Token
  | .importing decl => Node.tokens decl
  | .type header members => Node.tokens header ++ members.tokens
  | .function header body => Node.tokens header ++ tokensOfBlock? body
  | .variable header bindings => Node.tokens header ++ tokensOfBindings bindings
  | .initializer header body => Node.tokens header ++ tokensOfBlock? body
  | .finalizer header body => Node.tokens header ++ tokensOfBlock? body
  | .raw decl => Node.tokens decl

def PatternBinding.tokens : PatternBinding → List Token
  | ⟨pattern, type, initializer, accessor, comma⟩ =>
    Node.tokens pattern ++ Node.tokens type ++ tokensOfClause? initializer ++
      tokensOfBlock? accessor ++ Node.tokens comma

def tokensOfBindings : List PatternBinding → List Token
  | [] => []
  | binding :: later => binding.tokens ++ tokensOfBindings later

end

theorem ArgumentList.tokens_ne_nil (list : ArgumentList) : list.tokens ≠ [] := by
  cases list
  simp [ArgumentList.tokens]

@[simp] theorem CallArguments.tokens_absent : CallArguments.absent.tokens = [] :=
  rfl

/-- A closed argument list has the tokens it has in parentheses. -/
@[simp] theorem CallArguments.tokens_ofList (list : ArgumentList) :
    (CallArguments.ofList list).tokens = list.tokens := by
  cases list
  rfl

/-- What is closed is a list of arguments between two parentheses. -/
theorem CallArguments.exists_eq_ofList {list : CallArguments} (closed : list.isClosed = true) :
    ∃ inner : ArgumentList, list = .ofList inner ∧ inner.closer.isMissing = false := by
  obtain ⟨left, arguments, right⟩ := list
  obtain ⟨opened, present⟩ := Bool.and_eq_true_iff.1 closed
  cases left with
  | none => cases opened
  | some opener =>
    cases right with
    | none => cases present
    | some closer => exact ⟨⟨opener, arguments, closer⟩, rfl, by simpa using present⟩

theorem CallArguments.tokens_ne_nil {list : CallArguments} (closed : list.isClosed = true) :
    list.tokens ≠ [] := by
  obtain ⟨inner, rfl, -⟩ := exists_eq_ofList closed
  rw [tokens_ofList]
  exact inner.tokens_ne_nil

section Operators

variable {operator : Option Token} {others operators : List Token}
  (first : operator.isSome = operators.head?.isSome)
  (length_eq : others.length = operators.tail.length)

include first length_eq

/-- The operators of a sequence are put together again from the first one and the others. -/
theorem length_toList_append : (operator.toList ++ others).length = operators.length := by
  cases operators <;> cases operator <;> simp_all

/-- An operator that follows the first operand is written between it and the next one. -/
theorem tokensOfOperands_toList_append (operand : Expr) (later : List Expr) :
    tokensOfOperands (operand :: later) (operator.toList ++ others) =
      operand.tokens ++ Node.tokens operator ++ tokensOfOperands later others := by
  cases operator with
  | none =>
    obtain rfl : operators = [] := by cases operators <;> simp_all
    obtain rfl : others = [] := List.eq_nil_of_length_eq_zero length_eq
    rfl
  | some operator => rfl

end Operators

theorem Closure.tokens_ne_nil (closure : Closure) : closure.tokens ≠ [] := by
  cases closure
  simp [Closure.tokens]

/-! ### Filling the tokens of expressions, statements and declarations -/

mutual

def Expr.fill : Expr → Supply Expr
  | .identifier token => .identifier <$> Node.fill token
  | .literal token => .literal <$> Node.fill token
  | .member base period name => do
    let base ← fillExpr? base
    let period ← Node.fill period
    let name ← Node.fill name
    return .member base period name
  | .call callee arguments closure => do
    let callee ← callee.fill
    let arguments ← arguments.fill
    let closure ← fillClosure? closure
    return .call callee arguments closure
  | .index base arguments => do
    let base ← base.fill
    let arguments ← arguments.fill
    return .index base arguments
  | .sequence operands operators => do
    let parts ← fillOperands operands operators
    return .sequence parts.1 parts.2
  | .prefixed operator operand => do
    let operator ← Node.fill operator
    let operand ← operand.fill
    return .prefixed operator operand
  | .suffixed operand operator => do
    let operand ← operand.fill
    let operator ← Node.fill operator
    return .suffixed operand operator
  | .trying keyword mark operand => do
    let keyword ← Node.fill keyword
    let mark ← Node.fill mark
    let operand ← operand.fill
    return .trying keyword mark operand
  | .awaiting keyword operand => do
    let keyword ← Node.fill keyword
    let operand ← operand.fill
    return .awaiting keyword operand
  | .tuple elements => .tuple <$> elements.fill
  | .collection left elements right => do
    let left ← Node.fill left
    let elements ← fillElements elements
    let right ← Node.fill right
    return .collection left elements right
  | .closure closure => .closure <$> closure.fill
  | .specialized base arguments => do
    let base ← base.fill
    let arguments ← Node.fill arguments
    return .specialized base arguments
  | .raw tokens => .raw <$> Node.fill tokens

def fillExpr? : Option Expr → Supply (Option Expr)
  | none => pure none
  | some expr => some <$> expr.fill

def ArgumentList.fill : ArgumentList → Supply ArgumentList
  | ⟨opener, arguments, closer⟩ => do
    let opener ← Node.fill opener
    let arguments ← fillArguments arguments
    let closer ← Node.fill closer
    return ⟨opener, arguments, closer⟩

def CallArguments.fill : CallArguments → Supply CallArguments
  | ⟨left, arguments, right⟩ => do
    let left ← Node.fill left
    let arguments ← fillArguments arguments
    let right ← Node.fill right
    return ⟨left, arguments, right⟩

def Argument.fill : Argument → Supply Argument
  | ⟨label, value, comma⟩ => do
    let label ← Node.fill label
    let value ← value.fill
    let comma ← Node.fill comma
    return ⟨label, value, comma⟩

def fillArguments : List Argument → Supply (List Argument)
  | [] => pure []
  | argument :: later => do
    let argument ← argument.fill
    let later ← fillArguments later
    return argument :: later

/-- Operators that belong to no operand stay as they are. -/
def fillOperands : List Expr → List Token → Supply (List Expr × List Token)
  | [], operators => pure ([], operators)
  | operand :: later, operators => do
    let operand ← operand.fill
    let operator ← Node.fill operators.head?
    let parts ← fillOperands later operators.tail
    return (operand :: parts.1, operator.toList ++ parts.2)

def CollectionElement.fill : CollectionElement → Supply CollectionElement
  | .value value comma => do
    let value ← value.fill
    let comma ← Node.fill comma
    return .value value comma
  | .entry key colon value comma => do
    let key ← key.fill
    let colon ← Node.fill colon
    let value ← value.fill
    let comma ← Node.fill comma
    return .entry key colon value comma

def fillElements : List CollectionElement → Supply (List CollectionElement)
  | [] => pure []
  | element :: later => do
    let element ← element.fill
    let later ← fillElements later
    return element :: later

def Closure.fill : Closure → Supply Closure
  | ⟨left, signature, statements, right⟩ => do
    let left ← Node.fill left
    let signature ← Node.fill signature
    let statements ← fillStatements statements
    let right ← Node.fill right
    return ⟨left, signature, statements, right⟩

def fillClosure? : Option Closure → Supply (Option Closure)
  | none => pure none
  | some closure => some <$> closure.fill

def Statement.fill : Statement → Supply Statement
  | ⟨item, semicolon⟩ => do
    let item ← item.fill
    let semicolon ← Node.fill semicolon
    return ⟨item, semicolon⟩

def fillStatements : List Statement → Supply (List Statement)
  | [] => pure []
  | statement :: later => do
    let statement ← statement.fill
    let later ← fillStatements later
    return statement :: later

def Item.fill : Item → Supply Item
  | .expr expr => .expr <$> expr.fill
  | .decl decl => .decl <$> decl.fill
  | .returning keyword value => do
    let keyword ← Node.fill keyword
    let value ← fillExpr? value
    return .returning keyword value
  | .throwing keyword value => do
    let keyword ← Node.fill keyword
    let value ← value.fill
    return .throwing keyword value
  | .conditional statement => .conditional <$> statement.fill
  | .guarding keyword conditions elseKeyword body => do
    let keyword ← Node.fill keyword
    let conditions ← fillConditions conditions
    let elseKeyword ← Node.fill elseKeyword
    let body ← body.fill
    return .guarding keyword conditions elseKeyword body
  | .forIn keyword modifiers pattern type inKeyword sequence filter body => do
    let keyword ← Node.fill keyword
    let modifiers ← Node.fill modifiers
    let pattern ← Node.fill pattern
    let type ← Node.fill type
    let inKeyword ← Node.fill inKeyword
    let sequence ← sequence.fill
    let filter ← fillClause? filter
    let body ← body.fill
    return .forIn keyword modifiers pattern type inKeyword sequence filter body
  | .whileLoop keyword conditions body => do
    let keyword ← Node.fill keyword
    let conditions ← fillConditions conditions
    let body ← body.fill
    return .whileLoop keyword conditions body
  | .repeatLoop keyword body whileKeyword condition => do
    let keyword ← Node.fill keyword
    let body ← body.fill
    let whileKeyword ← Node.fill whileKeyword
    let condition ← condition.fill
    return .repeatLoop keyword body whileKeyword condition
  | .doCatch keyword throwsClause body catches => do
    let keyword ← Node.fill keyword
    let throwsClause ← Node.fill throwsClause
    let body ← body.fill
    let catches ← fillCatches catches
    return .doCatch keyword throwsClause body catches
  | .switching keyword subject left cases right => do
    let keyword ← Node.fill keyword
    let subject ← subject.fill
    let left ← Node.fill left
    let cases ← fillCases cases
    let right ← Node.fill right
    return .switching keyword subject left cases right
  | .deferring keyword body => do
    let keyword ← Node.fill keyword
    let body ← body.fill
    return .deferring keyword body
  | .raw tokens => .raw <$> Node.fill tokens

def CodeBlock.fill : CodeBlock → Supply CodeBlock
  | ⟨left, statements, right⟩ => do
    let left ← Node.fill left
    let statements ← fillStatements statements
    let right ← Node.fill right
    return ⟨left, statements, right⟩

def fillBlock? : Option CodeBlock → Supply (Option CodeBlock)
  | none => pure none
  | some block => some <$> block.fill

def IfStatement.fill : IfStatement → Supply IfStatement
  | ⟨keyword, conditions, body, alternative⟩ => do
    let keyword ← Node.fill keyword
    let conditions ← fillConditions conditions
    let body ← body.fill
    let alternative ← alternative.fill
    return ⟨keyword, conditions, body, alternative⟩

def ElseClause.fill : ElseClause → Supply ElseClause
  | .absent => pure .absent
  | .block keyword body => do
    let keyword ← Node.fill keyword
    let body ← body.fill
    return .block keyword body
  | .chained keyword next => do
    let keyword ← Node.fill keyword
    let next ← next.fill
    return .chained keyword next

def Condition.fill : Condition → Supply Condition
  | .expr expr comma => do
    let expr ← expr.fill
    let comma ← Node.fill comma
    return .expr expr comma
  | .binding specifier pattern type initializer comma => do
    let specifier ← Node.fill specifier
    let pattern ← Node.fill pattern
    let type ← Node.fill type
    let initializer ← fillClause? initializer
    let comma ← Node.fill comma
    return .binding specifier pattern type initializer comma

def fillConditions : List Condition → Supply (List Condition)
  | [] => pure []
  | condition :: later => do
    let condition ← condition.fill
    let later ← fillConditions later
    return condition :: later

def Clause.fill : Clause → Supply Clause
  | ⟨mark, value⟩ => do
    let mark ← Node.fill mark
    let value ← value.fill
    return ⟨mark, value⟩

def fillClause? : Option Clause → Supply (Option Clause)
  | none => pure none
  | some clause => some <$> clause.fill

def CatchClause.fill : CatchClause → Supply CatchClause
  | ⟨keyword, pattern, body⟩ => do
    let keyword ← Node.fill keyword
    let pattern ← Node.fill pattern
    let body ← body.fill
    return ⟨keyword, pattern, body⟩

def fillCatches : List CatchClause → Supply (List CatchClause)
  | [] => pure []
  | clause :: later => do
    let clause ← clause.fill
    let later ← fillCatches later
    return clause :: later

def SwitchCase.fill : SwitchCase → Supply SwitchCase
  | ⟨label, statements⟩ => do
    let label ← Node.fill label
    let statements ← fillStatements statements
    return ⟨label, statements⟩

def fillCases : List SwitchCase → Supply (List SwitchCase)
  | [] => pure []
  | branch :: later => do
    let branch ← branch.fill
    let later ← fillCases later
    return branch :: later

def Decl.fill : Decl → Supply Decl
  | .importing decl => .importing <$> Node.fill decl
  | .type header members => do
    let header ← Node.fill header
    let members ← members.fill
    return .type header members
  | .function header body => do
    let header ← Node.fill header
    let body ← fillBlock? body
    return .function header body
  | .variable header bindings => do
    let header ← Node.fill header
    let bindings ← fillBindings bindings
    return .variable header bindings
  | .initializer header body => do
    let header ← Node.fill header
    let body ← fillBlock? body
    return .initializer header body
  | .finalizer header body => do
    let header ← Node.fill header
    let body ← fillBlock? body
    return .finalizer header body
  | .raw decl => .raw <$> Node.fill decl

def PatternBinding.fill : PatternBinding → Supply PatternBinding
  | ⟨pattern, type, initializer, accessor, comma⟩ => do
    let pattern ← Node.fill pattern
    let type ← Node.fill type
    let initializer ← fillClause? initializer
    let accessor ← fillBlock? accessor
    let comma ← Node.fill comma
    return ⟨pattern, type, initializer, accessor, comma⟩

def fillBindings : List PatternBinding → Supply (List PatternBinding)
  | [] => pure []
  | binding :: later => do
    let binding ← binding.fill
    let later ← fillBindings later
    return binding :: later

end

instance : Node Expr := ⟨Expr.tokens, Expr.fill⟩

instance : Node ArgumentList := ⟨ArgumentList.tokens, ArgumentList.fill⟩

instance : Node Argument := ⟨Argument.tokens, Argument.fill⟩

instance : Node CallArguments := ⟨CallArguments.tokens, CallArguments.fill⟩

instance : Node CollectionElement := ⟨CollectionElement.tokens, CollectionElement.fill⟩

instance : Node Closure := ⟨Closure.tokens, Closure.fill⟩

instance : Node Statement := ⟨Statement.tokens, Statement.fill⟩

instance : Node Item := ⟨Item.tokens, Item.fill⟩

instance : Node CodeBlock := ⟨CodeBlock.tokens, CodeBlock.fill⟩

instance : Node IfStatement := ⟨IfStatement.tokens, IfStatement.fill⟩

instance : Node ElseClause := ⟨ElseClause.tokens, ElseClause.fill⟩

instance : Node Condition := ⟨Condition.tokens, Condition.fill⟩

instance : Node Clause := ⟨Clause.tokens, Clause.fill⟩

instance : Node CatchClause := ⟨CatchClause.tokens, CatchClause.fill⟩

instance : Node SwitchCase := ⟨SwitchCase.tokens, SwitchCase.fill⟩

instance : Node Decl := ⟨Decl.tokens, Decl.fill⟩

instance : Node PatternBinding := ⟨PatternBinding.tokens, PatternBinding.fill⟩

instance : Node SourceFile where
  tokens file := tokensOfStatements file.statements ++ [file.endOfFile]
  fill file := do
    let statements ← fillStatements file.statements
    let endOfFile ← Node.fill file.endOfFile
    return { statements, endOfFile }

end SuiteMigration
