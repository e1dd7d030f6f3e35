import SuiteMigration.Reading.Header
import SuiteMigration.Tree.Tokens

/-!
# The grammar

A recursive descent over the tokens of a source. It never rejects anything: what a rule does not
understand becomes a raw run of tokens, a required token that is not there becomes a missing one,
and every loop either reads a token or stops.

The functions call each other without a common measure, so each takes fuel and passes on one unit
less. Fuel is proportional to the number of tokens, and `SuiteMigration.Reading.Source` supplies it.

## Main definitions

* `Parser.statement`, `Parser.statements` - statements
* `Parser.decl` - declarations
* `Parser.expr` - expressions
-/

namespace SuiteMigration

/-- Where an expression stands. In the head of a statement an opening brace begins the body of the
statement and not a closure. -/
inductive Position
  | free
  | head
  deriving DecidableEq, Repr

/-- A trailing closure can follow the expression. -/
def Expr.acceptsClosure : Expr → Bool
  | .identifier token => !token.isReserved
  | .call _ _ none => true
  | .member .. | .specialized .. | .suffixed .. => true
  | _ => false

/-- The expression with a trailing closure. -/
def Expr.withClosure (closure : Closure) : Expr → Expr
  | .call callee arguments _ => .call callee arguments (some closure)
  | callee => .call callee .absent (some closure)

/-- An operator and the operand to its right. -/
structure OperatorTerm where
  operator : Token
  operand : Expr

def tokensOfTerms : List OperatorTerm → List Token
  | [] => []
  | term :: later => term.operator :: term.operand.tokens ++ tokensOfTerms later

/-- The first operand with the operators and operands after it. -/
def Expr.ofTerms (first : Expr) (rest : List OperatorTerm) : Expr :=
  if rest.isEmpty then first
  else .sequence (first :: rest.map OperatorTerm.operand) (rest.map OperatorTerm.operator)

theorem tokensOfOperands_cons_terms (first : Expr) (rest : List OperatorTerm) :
    tokensOfOperands (first :: rest.map OperatorTerm.operand) (rest.map OperatorTerm.operator) =
      first.tokens ++ tokensOfTerms rest := by
  induction rest generalizing first with
  | nil => simp [tokensOfOperands, tokensOfTerms, Node.tokens]
  | cons term later ih =>
    rw [List.map_cons, List.map_cons, tokensOfOperands, List.tail_cons, ih]
    simp [tokensOfTerms, Node.tokens]

@[simp] theorem Expr.tokens_ofTerms (first : Expr) (rest : List OperatorTerm) :
    (Expr.ofTerms first rest).tokens = first.tokens ++ tokensOfTerms rest := by
  cases rest with
  | nil => simp [ofTerms, tokensOfTerms]
  | cons term later => exact tokensOfOperands_cons_terms first (term :: later)

namespace Cursor

/-- The label of a case stands at the cursor. -/
def atCaseLabel (cursor : Cursor) : Bool :=
  cursor.atKeyword "case" || cursor.atKeyword "default" && cursor.second.kind == .colon ||
    cursor.isAt .atSign && cursor.second.text == "unknown"

/-- A statement that returns ends at the cursor. -/
def atReturnEnd (cursor : Cursor) : Bool :=
  cursor.atEnd || cursor.atNewLine || cursor.isAt .rightBrace || cursor.isAt .semicolon

/-- The keyword of a binding condition stands at the cursor. -/
def atBindingKeyword (cursor : Cursor) : Bool :=
  cursor.atKeyword "let" || cursor.atKeyword "var" || cursor.atKeyword "case"

/-- The label of an argument stands at the cursor. -/
def atLabel (cursor : Cursor) : Bool :=
  cursor.isAt .identifier && cursor.second.kind == .colon

/-- A jump target stands at the cursor, on the line of the jump. -/
def atJumpTarget (cursor : Cursor) : Bool :=
  cursor.isAt .identifier && !cursor.atNewLine && !cursor.peek.isReserved

/-- A member name follows the period at the cursor. -/
def atMember (cursor : Cursor) : Bool :=
  cursor.isAt .period &&
    [TokenKind.identifier, .number, .poundIdentifier].contains cursor.second.kind

/-- An argument ends at the cursor. -/
def atArgumentEnd (cursor : Cursor) (closer : TokenKind) : Bool :=
  cursor.atEnd || cursor.isAt .comma || cursor.isAt closer

/-- The number of words between `for` and its pattern. -/
def loopModifiers (cursor : Cursor) : Nat :=
  (cursor.pending.takeWhile fun token =>
    token.isKeyword "try" || token.isKeyword "await" || token.isKeyword "case").length

end Cursor

namespace Parser

/-- The cast operator that may stand at the cursor. The word `as` takes a mark that follows it
directly into its own token. -/
def castOperator : Parser Token := do
  let word ← bump
  if word.text == "as" then
    match ← optionalMark with
    | some mark => return { word with text := word.text ++ mark.text, trailing := mark.trailing }
    | none => return word
  else return word

/-- The operator between operands that stands at the cursor. A colon is one as long as a ternary
is open. -/
def binaryOperator? (ternaries : Nat) : Parser (Option Token) := do
  let cursor ← get
  if cursor.atOperator .between || cursor.isAt .colon && ternaries != 0 then some <$> bump
  else if cursor.atKeyword "is" || cursor.atKeyword "as" then some <$> castOperator
  else return none

/-- The ternaries that are open after an operator. -/
def ternariesAfter (ternaries : Nat) (operator : Token) : Nat :=
  if operator.isOperator "?" then ternaries + 1
  else if operator.kind == .colon then ternaries - 1
  else ternaries

/-- The operator is followed by a type. -/
def isCast (operator : Token) : Bool :=
  operator.kind == .identifier && ["is", "as", "as?", "as!"].contains operator.text

/-- What is left before the next comma or closing delimiter makes the whole value a raw run. -/
def absorbStray (value : Expr) (closer : TokenKind) : Parser Expr := do
  if ← ask (·.atArgumentEnd closer) then return value
  else
    let stray ← run Cursor.strayRun
    return .raw (value.tokens ++ stray)

/-- The label that may stand at the cursor. -/
def label? : Parser (Option Label) := do
  if ← ask Cursor.atLabel then
    let name ← bump
    let colon ← bump
    return some { name, colon }
  else return none

/-- The signature that may stand at the cursor, right after the brace that opens a closure. -/
def closureSignature? : Parser (Option ClosureSignature) := do
  match ← ask Cursor.signatureLength? with
  | none => return none
  | some length =>
    let tokens ← run fun _ => length
    let inKeyword ← bump
    return some { tokens, inKeyword }

/-! ### Kinds of statements

Each of them is given the functions that read its parts. -/

def guardStatement (conditions : Parser (List Condition)) (body : Parser CodeBlock) :
    Parser Item := do
  let keyword ← bump
  let conditions ← conditions
  let elseKeyword ← expectKeyword "else"
  let body ← body
  return .guarding keyword conditions elseKeyword body

def forLoop (sequence : Parser Expr) (filter : Parser (Option Clause)) (body : Parser CodeBlock) :
    Parser Item := do
  let keyword ← bump
  let modifiers ← run Cursor.loopModifiers
  let pattern ← pattern
  let type ← typeAnnotation
  let inKeyword ← expectKeyword "in"
  let sequence ← sequence
  let filter ← filter
  let body ← body
  return .forIn keyword modifiers pattern type inKeyword sequence filter body

def whileLoop (conditions : Parser (List Condition)) (body : Parser CodeBlock) : Parser Item := do
  let keyword ← bump
  let conditions ← conditions
  let body ← body
  return .whileLoop keyword conditions body

def repeatLoop (body : Parser CodeBlock) (condition : Parser Expr) : Parser Item := do
  let keyword ← bump
  let body ← body
  let whileKeyword ← expectKeyword "while"
  -- Without the keyword the next tokens belong to the next statement.
  let condition ← if whileKeyword.isMissing then pure Expr.empty else condition
  return .repeatLoop keyword body whileKeyword condition

def doStatement (body : Parser CodeBlock) (catches : Parser (List CatchClause)) :
    Parser Item := do
  let keyword ← bump
  let word ← bumpIf (·.atKeyword "throws")
  let type ← run fun cursor => if word.isSome then cursor.attachedGroup else 0
  let body ← body
  let catches ← catches
  return .doCatch keyword (word.toList ++ type) body catches

def switchStatement (subject : Parser Expr) (cases : Parser (List SwitchCase)) :
    Parser Item := do
  let keyword ← bump
  let subject ← subject
  match ← bumpIf (·.isAt .leftBrace) with
  | none => return .switching keyword subject (.missing .leftBrace) [] (.missing .rightBrace)
  | some leftBrace =>
    let cases ← cases
    let rightBrace ← expect .rightBrace
    return .switching keyword subject leftBrace cases rightBrace

def deferStatement (body : Parser CodeBlock) : Parser Item := do
  let keyword ← bump
  let body ← body
  return .deferring keyword body

def returnStatement (value : Parser Expr) : Parser Item := do
  let keyword ← bump
  if ← ask Cursor.atReturnEnd then return .returning keyword none
  else
    let value ← value
    return .returning keyword (if value.isEmpty then none else some value)

def throwStatement (value : Parser Expr) : Parser Item := do
  let keyword ← bump
  let value ← value
  return .throwing keyword value

/-- `break` and `continue`, which may name what they leave. -/
def jump : Parser Item := do
  let keyword ← bump
  let target ← bumpIf Cursor.atJumpTarget
  return .raw (keyword :: target.toList)

/-! ### The recursion -/

mutual

/-- The statements up to the brace that closes their block. -/
def statements : Nat → Parser (List Statement)
  | 0 => failure
  | fuel + 1 => do
    if ← ask fun cursor => cursor.atEnd || cursor.isAt .rightBrace then return []
    else
      let first ← statement fuel
      let later ← statements fuel
      return first :: later

/-- A statement. A token with which no statement begins is a statement of its own. -/
def statement : Nat → Parser Statement
  | 0 => failure
  | fuel + 1 => do
    -- An item may read nothing, for instance an empty expression. Then a token is taken anyway.
    let before ← ask (·.pending.length)
    let item ← item fuel
    let after ← ask (·.pending.length)
    let item ← if after = before then (fun token => Item.raw [token]) <$> bump else pure item
    let semicolon ← bumpIf (·.isAt .semicolon)
    return { item, semicolon }

/-- What a statement does. -/
def item : Nat → Parser Item
  | 0 => failure
  | fuel + 1 => do
    let cursor ← get
    let token := cursor.peek
    if token.kind == .poundIdentifier && (token.text == "#if" || token.text == "#elseif") then
      .raw <$> run Cursor.restOfLine
    else if token.kind == .poundIdentifier && (token.text == "#else" || token.text == "#endif") then
      .raw <$> run fun _ => 1
    else if cursor.declarationKeyword?.isSome then .decl <$> decl fuel
    else if token.kind == .identifier then
      match token.text with
      | "if" => .conditional <$> ifStatement fuel
      | "guard" => guardStatement (conditions fuel) (codeBlock fuel)
      | "for" =>
        forLoop (expr fuel .head) (clause? fuel .head (·.atKeyword "where")) (codeBlock fuel)
      | "while" => whileLoop (conditions fuel) (codeBlock fuel)
      | "repeat" => repeatLoop (codeBlock fuel) (expr fuel .head)
      | "do" => doStatement (codeBlock fuel) (catches fuel)
      | "switch" => switchStatement (expr fuel .head) (switchCases fuel)
      | "defer" => deferStatement (codeBlock fuel)
      | "return" => returnStatement (expr fuel .free)
      | "throw" => throwStatement (expr fuel .free)
      | "break" | "continue" => jump
      | "fallthrough" => .raw <$> run fun _ => 1
      | _ => .expr <$> expr fuel .free
    else .expr <$> expr fuel .free

/-- A block. It is missing where no brace opens one. -/
def codeBlock : Nat → Parser CodeBlock
  | 0 => failure
  | fuel + 1 => do
    match ← bumpIf (·.isAt .leftBrace) with
    | none => return .missing
    | some leftBrace =>
      let statements ← statements fuel
      let rightBrace ← expect .rightBrace
      return { leftBrace, statements, rightBrace }

/-- A block if a brace opens one. -/
def codeBlock? : Nat → Parser (Option CodeBlock)
  | 0 => failure
  | fuel + 1 => do
    if ← ask (·.isAt .leftBrace) then some <$> codeBlock fuel else return none

/-- A conditional statement. -/
def ifStatement : Nat → Parser IfStatement
  | 0 => failure
  | fuel + 1 => do
    let keyword ← bump
    let conditions ← conditions fuel
    let body ← codeBlock fuel
    let alternative ← elseClause fuel
    return { keyword, conditions, body, alternative }

/-- The alternative of a conditional statement. -/
def elseClause : Nat → Parser ElseClause
  | 0 => failure
  | fuel + 1 => do
    match ← bumpIf (·.atKeyword "else") with
    | none => return .absent
    | some keyword =>
      if ← ask (·.atKeyword "if") then .chained keyword <$> ifStatement fuel
      else .block keyword <$> codeBlock fuel

/-- Conditions with commas between them. -/
def conditions : Nat → Parser (List Condition)
  | 0 => failure
  | fuel + 1 => do
    let condition ← condition fuel
    let comma ← bumpIf (·.isAt .comma)
    let later ← if comma.isSome then conditions fuel else pure []
    return condition comma :: later

/-- A condition that still lacks the comma after it. -/
def condition : Nat → Parser (Option Token → Condition)
  | 0 => failure
  | fuel + 1 => do
    if ← ask Cursor.atBindingKeyword then
      let specifier ← bump
      let pattern ← pattern
      let type ← typeAnnotation
      let initializer ← clause? fuel .head (·.peek.isOperator "=")
      return .binding specifier pattern type initializer
    else
      let expr ← expr fuel .head
      return .expr expr

/-- An expression behind the sign or keyword that introduces it, if that stands at the cursor. -/
def clause? : Nat → Position → (Cursor → Bool) → Parser (Option Clause)
  | 0, _, _ => failure
  | fuel + 1, position, isMark => do
    match ← bumpIf isMark with
    | none => return none
    | some mark =>
      let value ← expr fuel position
      return some { mark, value }

/-- The handlers of errors. -/
def catches : Nat → Parser (List CatchClause)
  | 0 => failure
  | fuel + 1 => do
    match ← bumpIf (·.atKeyword "catch") with
    | none => return []
    | some keyword =>
      let pattern ← run Cursor.catchRun
      let body ← codeBlock fuel
      let later ← catches fuel
      return { keyword, pattern, body } :: later

/-- The cases up to the brace that closes their statement. -/
def switchCases : Nat → Parser (List SwitchCase)
  | 0 => failure
  | fuel + 1 => do
    if ← ask fun cursor => cursor.atEnd || cursor.isAt .rightBrace then return []
    else
      -- Statements before the first label make a case without one.
      let label ← run fun cursor => if cursor.atCaseLabel then cursor.labelRun else 0
      let statements ← caseStatements fuel
      let later ← switchCases fuel
      return { label, statements } :: later

/-- The statements of a case. -/
def caseStatements : Nat → Parser (List Statement)
  | 0 => failure
  | fuel + 1 => do
    if ← ask fun cursor => cursor.atEnd || cursor.isAt .rightBrace || cursor.atCaseLabel then
      return []
    else
      let first ← statement fuel
      let later ← caseStatements fuel
      return first :: later

/-- A declaration. -/
def decl : Nat → Parser Decl
  | 0 => failure
  | fuel + 1 => do
    let attributes ← attributes
    let modifiers ← modifiers
    let word ← ask (·.peek.text)
    if word == "import" then .importing <$> importDecl attributes modifiers
    else if typeWords.contains word then
      let header ← typeHeader attributes modifiers
      let members ← codeBlock fuel
      return .type header members
    else if word == "func" then
      let header ← functionHeader attributes modifiers
      let body ← codeBlock? fuel
      return .function header body
    else if word == "var" || word == "let" then
      let keyword ← bump
      let bindings ← bindings fuel
      return .variable { attributes, modifiers, keyword } bindings
    else if word == "init" then
      let header ← initializerHeader attributes modifiers
      let body ← codeBlock? fuel
      return .initializer header body
    else if word == "deinit" then
      let keyword ← bump
      let body ← codeBlock? fuel
      return .finalizer { attributes, modifiers, keyword } body
    else .raw <$> rawDecl attributes modifiers

/-- The bindings of a variable declaration with commas between them. -/
def bindings : Nat → Parser (List PatternBinding)
  | 0 => failure
  | fuel + 1 => do
    let pattern ← pattern
    let type ← typeAnnotation
    let initializer ← clause? fuel .free (·.peek.isOperator "=")
    let accessor ← codeBlock? fuel
    let comma ← bumpIf (·.isAt .comma)
    let later ← if comma.isSome then bindings fuel else pure []
    return { pattern, type, initializer, accessor, comma } :: later

/-- An expression: operands with operators between them. -/
def expr : Nat → Position → Parser Expr
  | 0, _ => failure
  | fuel + 1, position => do
    let first ← unary fuel position
    if first.isEmpty then return first
    else
      let rest ← terms fuel position 0
      return .ofTerms first rest

/-- The operators and operands after the first operand. -/
def terms : Nat → Position → Nat → Parser (List OperatorTerm)
  | 0, _, _ => failure
  | fuel + 1, position, ternaries => do
    match ← binaryOperator? ternaries with
    | none => return []
    | some operator =>
      let operand ←
        if isCast operator then .raw <$> run Cursor.castRun else unary fuel position
      let later ← terms fuel position (ternariesAfter ternaries operator)
      return { operator, operand } :: later

/-- An operand with its prefixes. -/
def unary : Nat → Position → Parser Expr
  | 0, _ => failure
  | fuel + 1, position => do
    let cursor ← get
    if cursor.atKeyword "try" then
      let keyword ← bump
      let mark ← optionalMark
      let operand ← expr fuel position
      return .trying keyword mark operand
    else if cursor.atKeyword "await" then
      let keyword ← bump
      let operand ← expr fuel position
      return .awaiting keyword operand
    else if cursor.atOperator .before then
      let operator ← bump
      let operand ← unary fuel position
      return .prefixed operator operand
    else if cursor.isAt .backslash then
      -- A key path may begin with a suffix, so an empty root is no reason to stop.
      let operator ← bump
      let root ← primary fuel position
      let operand ← suffixes fuel position root
      return .prefixed operator operand
    else
      let root ← primary fuel position
      if root.isEmpty then return root else suffixes fuel position root

/-- An operand without prefixes and suffixes. It is empty where none begins. -/
def primary : Nat → Position → Parser Expr
  | 0, _ => failure
  | fuel + 1, position => do
    let token ← ask Cursor.peek
    match token.kind with
    | .identifier =>
      if ["true", "false", "nil"].contains token.text then .literal <$> bump
      else if token.isReserved then return .empty
      else .identifier <$> bump
    | .poundIdentifier => .identifier <$> bump
    | .number | .stringLiteral => .literal <$> bump
    | .leftParen => .tuple <$> argumentList fuel .rightParen
    | .leftBracket => collection fuel
    | .leftBrace => if position = .free then .closure <$> closure fuel else return .empty
    | .period =>
      let period ← bump
      let name ← bumpIf fun cursor => cursor.isAt .identifier || cursor.isAt .number
      return .member none period (name.getD (.missing .identifier))
    | _ => return .empty

/-- Members, arguments, indices, closures and suffix operators after an operand. -/
def suffixes : Nat → Position → Expr → Parser Expr
  | 0, _, _ => failure
  | fuel + 1, position, base => do
    let cursor ← get
    if cursor.atMember then
      let period ← bump
      let name ← bump
      suffixes fuel position (.member (some base) period name)
    else if cursor.isAt .leftParen && !cursor.atNewLine then
      let arguments ← argumentList fuel .rightParen
      suffixes fuel position (.call base (.ofList arguments) none)
    else if cursor.isAt .leftBracket && !cursor.atNewLine then
      let arguments ← argumentList fuel .rightBracket
      suffixes fuel position (.index base arguments)
    else if cursor.isAt .leftBrace && position = .free && !cursor.atNewLine &&
        base.acceptsClosure then
      let closure ← closure fuel
      suffixes fuel position (base.withClosure closure)
    else if cursor.atOperator .after then
      let operator ← bump
      suffixes fuel position (.suffixed base operator)
    else match cursor.genericArguments? with
      | some length =>
        let arguments ← run fun _ => length
        suffixes fuel position (.specialized base arguments)
      | none => return base

/-- Arguments from the opening delimiter at the cursor through the closing one. -/
def argumentList : Nat → TokenKind → Parser ArgumentList
  | 0, _ => failure
  | fuel + 1, closerKind => do
    let opener ← bump
    let arguments ← arguments fuel closerKind
    let closer ← expect closerKind
    return { opener, arguments, closer }

/-- Arguments with commas between them, up to the closing delimiter. -/
def arguments : Nat → TokenKind → Parser (List Argument)
  | 0, _ => failure
  | fuel + 1, closerKind => do
    if ← ask fun cursor => cursor.atEnd || cursor.isAt closerKind then return []
    else
      let label ← label?
      let value ← expr fuel .free
      let value ← absorbStray value closerKind
      let comma ← bumpIf (·.isAt .comma)
      if label.isNone && value.isEmpty && comma.isNone then return []
      else
        let later ← if comma.isSome then arguments fuel closerKind else pure []
        return { label, value, comma } :: later

/-- A collection literal. The empty dictionary is kept as it is. -/
def collection : Nat → Parser Expr
  | 0 => failure
  | fuel + 1 => do
    let leftBracket ← bump
    if ← ask fun cursor => cursor.isAt .colon && cursor.second.kind == .rightBracket then
      let colon ← bump
      let rightBracket ← bump
      return .raw [leftBracket, colon, rightBracket]
    else
      let elements ← elements fuel
      let rightBracket ← expect .rightBracket
      return .collection leftBracket elements rightBracket

/-- The elements of a collection literal with commas between them. -/
def elements : Nat → Parser (List CollectionElement)
  | 0 => failure
  | fuel + 1 => do
    if ← ask fun cursor => cursor.atEnd || cursor.isAt .rightBracket then return []
    else
      let first ← expr fuel .free
      match ← bumpIf (·.isAt .colon) with
      | some colon =>
        let value ← expr fuel .free
        let value ← absorbStray value .rightBracket
        let comma ← bumpIf (·.isAt .comma)
        let later ← if comma.isSome then elements fuel else pure []
        return .entry first colon value comma :: later
      | none =>
        let value ← absorbStray first .rightBracket
        let comma ← bumpIf (·.isAt .comma)
        if value.isEmpty && comma.isNone then return []
        else
          let later ← if comma.isSome then elements fuel else pure []
          return .value value comma :: later

/-- A closure. -/
def closure : Nat → Parser Closure
  | 0 => failure
  | fuel + 1 => do
    let leftBrace ← bump
    let signature ← closureSignature?
    let statements ← statements fuel
    let rightBrace ← expect .rightBrace
    return { leftBrace, signature, statements, rightBrace }

end

/-- The statements of a file. A brace that closes nothing is a statement of its own. -/
def fileStatements : Nat → Parser (List Statement)
  | 0 => failure
  | fuel + 1 => do
    if ← ask Cursor.atEnd then return []
    else
      -- No block is open here, so a closing brace cannot end anything.
      let first ←
        if ← ask (·.isAt .rightBrace) then (fun token => .ofItem (.raw [token])) <$> bump
        else statement fuel
      let later ← fileStatements fuel
      return first :: later

end Parser

end SuiteMigration
