import SuiteMigration.Expectation

/-!
# Expectations of errors

The assertions that something throws, or that nothing does, become expectations with a closure. A
handler of the error cannot stay with the call: the statement is split, the expectation binds
`error`, and the statements of the handler follow it with their references to the parameter of the
handler redirected to `error`.

A call that shares its line with earlier code stays on that line, and the pieces are divided by
semicolons.

A call is taken apart before it is known whether it can become an expectation. What cannot is handed
back, put together again.

## Main definitions

* `ThrowExpectation` - whether an error is expected
* `ThrowExpectation.call?` - the expectation for given arguments
* `ThrowExpectation.replace` - the expectation in place of a call
* `redirect` - the transformer that redirects the parameter of a handler
* `Statement.split` - the statements that a call with a handler becomes
* `throwingPass` - the pass
-/

namespace SuiteMigration

/-- Whether an error is expected. -/
inductive ThrowExpectation
  | anyError
  | never
  deriving DecidableEq, Repr

namespace ThrowExpectation

/-- What the assertion of the given name expects. -/
def ofName? : String → Option ThrowExpectation
  | "XCTAssertThrowsError" => some .anyError
  | "XCTAssertNoThrow" => some .never
  | _ => none

/-- The type of the expected error: `(any Error).self` or `Never.self`. -/
def errorType (expectation : ThrowExpectation) : Expr :=
  let base : Expr := match expectation with
    | .anyError =>
      .tuple
        { opener := .ofPunctuation '('
          arguments :=
            [.ofValue (.raw [(Token.ofName "any").withTrailing .space, .ofName "Error"])]
          closer := .ofPunctuation ')' }
    | .never => .identifier (.ofName "Never")
  .member (some base) (.ofPunctuation '.') (.ofName "self")

/-- The expression can be the body of an expectation: there is one, and no comment follows it. -/
def isUsable (body : Expr) : Bool :=
  !body.isEmpty && !(Node.trailing body).hasComment

/-- The argument that names the type of the expected error. -/
def typeArgument (expectation : ThrowExpectation) (isLast : Bool) : Argument :=
  { label := some
      { name := .ofName "throws", colon := (Token.ofPunctuation ':').withTrailing .space }
    value := expectation.errorType
    comma := if isLast then none else some (.ofPunctuation ',') }

/-- The closure around the body of an expectation. -/
def bodyClosure (body : Expr) (trailing : Trivia) : Closure :=
  { leftBrace := (Token.ofPunctuation '\x7b').withTrailing .space
    signature := none
    statements := [.ofItem (.expr (Node.setTrailing (Node.setLeading body "") .space))]
    rightBrace := (Token.ofPunctuation '\x7d').withTrailing trailing }

/-- The message with a space before it. -/
def spacedMessage (message : Argument) : Argument :=
  { message with value := Node.setLeading message.value .space }

/-- The expectation for the given arguments, with the given trivia around it. The first argument
without a label becomes the body and the others the messages. -/
def call? (expectation : ThrowExpectation) (leading trailing : Trivia)
    (arguments : List Argument) : Option Expr :=
  match positional arguments with
  | [] => none
  | body :: messages =>
    if isUsable body.value then
      let messages := modifyFirst spacedMessage (stripComma messages)
      some <| .call (.identifier ((Token.ofName "#expect").withLeading leading))
        { leftParen := some (.ofPunctuation '(')
          arguments := expectation.typeArgument messages.isEmpty :: messages
          rightParen := some ((Token.ofPunctuation ')').withTrailing .space) }
        (some (bodyClosure body.value trailing))
    else none

/-- The expectation in place of a call. The call is handed back if its first argument without a
label cannot be the body of an expectation. -/
def replace (expectation : ThrowExpectation) (call : Expr) : Except Expr Expr :=
  match call with
  | .call callee list closure =>
    let body := list.arguments.find? fun argument => argument.label.isNone
    if body.any fun body => isUsable body.value then
      match expectation.call? (Node.leading callee) (Node.trailing call) list.arguments with
      | some new => .ok new
      | none =>
        -- By now the arguments and the trivia around the call are taken off it.
        .error <| Node.setTrailing
          (.call (Node.setLeading callee "") { list with arguments := [] } closure) ""
    else .error call
  | other => .error other

end ThrowExpectation

/-- What the call of an assertion about errors expects, if it has both parentheses. -/
def throwExpectation? (callee : Expr) (list : CallArguments) : Option ThrowExpectation :=
  if list.isClosed then callee.name?.bind ThrowExpectation.ofName? else none

/-- The expectation that an expression becomes, if it is an assertion about errors without a
handler. Any other expression is handed back. -/
def Expr.throwing (expr : Expr) : Except Expr Expr :=
  match expr with
  | .call callee list none =>
    match throwExpectation? callee list with
    | some expectation => expectation.replace expr
    | none => .error expr
  | _ => .error expr

/-- The expectation that an expression becomes, if any. -/
def Expr.throwing? (expr : Expr) : Option Expr :=
  expr.throwing.toOption

/-! ### Redirecting the parameter of a handler -/

/-- The name that the expectation binds. -/
def errorName : String := "error"

/-- The closure is taken to bind the given name anew. Every name that begins with a dollar sign
counts as a numbered parameter, which each closure without a signature binds. -/
def Closure.shadows (closure : Closure) (parameter : String) : Bool :=
  if parameter.toList.head? == some '$' then closure.signature.isNone
  else closure.parameterNames.contains parameter

/-- The bound name in place of a token. -/
def redirected (token : Token) : Token :=
  { token with text := errorName }

/-- The bound name and a mark in place of a token, because the bound error is optional. -/
def optionalError (token : Token) : Expr :=
  .suffixed (.identifier ((redirected token).withTrailing ""))
    ((Token.ofOperator "?").withTrailing token.trailing)

/-- References to the parameter of a handler become references to the bound error. -/
def redirect (parameter : String) : Transformer Unit where
  expr expr parts :=
    match expr with
    | .identifier token =>
      if token.text == parameter then pure (.identifier (redirected token)) else parts
    -- A member of the parameter is reached through the optional error.
    | .member (some (.identifier token)) period name =>
      if token.text == parameter then pure (.member (some (optionalError token)) period name)
      else parts
    | _ => parts
  closure closure parts :=
    if closure.shadows parameter then pure closure else parts

/-- The statement with references to the parameter redirected. -/
def Statement.redirected (statement : Statement) : Option String → Statement
  | none => statement
  | some parameter => ((statement.transform (redirect parameter)).run ()).1

/-! ### Splitting a statement -/

/-- The name that a handler gives to the error. -/
def Closure.errorParameter? (handler : Closure) : Option String :=
  match handler.signature with
  | none => some "$0"
  | some signature => signature.parameterNames.head?

/-- The statement that binds the result of an expectation to `error`. -/
def errorBinding (leading : Trivia) (expectation : Expr) : Statement :=
  .ofItem <| .decl <| .variable
    { attributes := [], modifiers := [], keyword := (Token.ofName "let").withLeading leading }
    [{ pattern := .identifier ((Token.ofName errorName).withLeading .space)
       type := none
       initializer := some
         { mark := ((Token.ofOperator "=").withLeading .space).withTrailing .space
           value := expectation }
       accessor := none
       comma := none }]

/-- Where the statements of a handler go. -/
structure Placement where
  /-- The indentation of the line of the call. -/
  indent : String
  /-- The call shares its line with earlier code. -/
  sharesLine : Bool

/-- The leading trivia of a statement of the handler in its new place. -/
def Placement.leading (placement : Placement) (old : Trivia) : Trivia :=
  if placement.sharesLine && !old.containsNewline then " " ++ Text.trimStart old
  else old.reindented placement.indent

/-- A statement of the handler in its new place. -/
def Placement.place (placement : Placement) (parameter : Option String) (statement : Statement) :
    Statement :=
  (Node.setLeading statement (placement.leading (Node.leading statement))).redirected parameter

/-- The statement with a semicolon. -/
def Statement.withSemicolon (statement : Statement) : Statement :=
  { statement with semicolon := some (statement.semicolon.getD (.ofPunctuation ';')) }

/-- The statements with a semicolon after each but the last. -/
def joinStatements : List Statement → List Statement
  | [] => []
  | [last] => [last]
  | first :: second :: later => first.withSemicolon :: joinStatements (second :: later)

/-- The last statement with the comments before the closing brace of the handler. -/
def Statement.withClosingComments (statement : Statement) (placement : Placement)
    (closing : Trivia) : Statement :=
  if closing.hasComment then
    Node.setTrailing statement
      (Node.trailing statement ++ Text.trimEnd (closing.reindented placement.indent))
  else statement

/-- The last statement with what followed the call: its trailing trivia and its semicolon. Of its
own trailing trivia only those with a comment are kept. -/
def Statement.withTail (statement : Statement) (trailing : Trivia) (semicolon : Option Token) :
    Statement :=
  let own := Node.trailing statement
  let kept := if own.hasComment then own else ""
  let statement := Node.setTrailing statement (kept ++ trailing)
  { statement with semicolon := statement.semicolon.or semicolon }

/-- The binding of an expectation with the statements of a handler behind it. The trivia before the
call go to the binding, and what followed the call goes to the last statement. -/
def flatten (expectation : Expr) (handler : Closure) (leading : Trivia) (firstInFile : Bool)
    (semicolon : Option Token) : List Statement :=
  let placement : Placement :=
    { indent := leading.lineIndentation
      sharesLine := !firstInFile && !leading.containsNewline }
  let placed := handler.statements.map (placement.place handler.errorParameter?)
  let statements := errorBinding leading expectation :: placed
  let statements := if placement.sharesLine then joinStatements statements else statements
  modifyLast
    (fun last =>
      (last.withClosingComments placement handler.rightBrace.leading).withTail
        handler.rightBrace.trailing semicolon)
    statements

/-- The call with a handler behind it. -/
def Expr.withHandler (handler : Closure) : Expr → Expr
  | .call callee arguments _ => .call callee arguments (some handler)
  | expr => expr

/-- The call with no trivia after its closure. -/
def Expr.withoutTail : Expr → Expr
  | .call callee arguments (some body) =>
    .call callee arguments (some { body with rightBrace := body.rightBrace.withTrailing "" })
  | expr => expr

/-- The statements that a call with a handler becomes: the binding of the expectation, and the
statements of the handler. Any other statement is handed back. -/
def Statement.split (statement : Statement) (firstInFile : Bool) :
    Except Statement (List Statement) :=
  match statement.item with
  | .expr (.call callee list (some handler)) =>
    match throwExpectation? callee list with
    | some expectation =>
      if list.arguments.any fun argument => argument.label.isNone && !argument.value.isEmpty then
        -- The handler and the trivia before the call are taken off before the call is replaced.
        let call : Expr := .call callee list none
        let leading := Node.leading call
        match expectation.replace (Node.setLeading call "") with
        | .ok new => .ok (flatten new.withoutTail handler leading firstInFile statement.semicolon)
        | .error call =>
          .error { statement with
            item := .expr (Node.setLeading (call.withHandler handler) leading) }
      else .error statement
    | none => .error statement
  | _ => .error statement

/-- The statements that a call with a handler becomes, if the statement is one. -/
def Statement.flattened? (statement : Statement) (firstInFile : Bool) : Option (List Statement) :=
  (statement.split firstInFile).toOption

/-! ### The pass -/

/-- The state of the pass. -/
structure ThrowingState where
  changes : Nat := 0
  /-- No statement has been met yet. -/
  atFileStart : Bool := true

/-- Assertions about errors are migrated after their parts. -/
def throwingTransformer : Transformer ThrowingState where
  expr _ parts := do
    let expr ← parts
    match expr.throwing with
    | .ok expectation =>
      modify fun state => { state with changes := state.changes + 1 }
      return expectation
    | .error expr => return expr
  statement _ parts := do
    -- Statements inside this one come later, so they are not the first of the file.
    let firstInFile := (← get).atFileStart
    modify fun state => { state with atFileStart := false }
    let statement ← parts
    match statement.split firstInFile with
    | .ok statements =>
      modify fun state => { state with changes := state.changes + 1 }
      return statements
    | .error statement => return [statement]

/-- Assertions about errors become expectations. -/
def throwingPass : Pass where
  name := "throwing-assertions"
  run := .ofTransformer throwingTransformer {} (·.changes)

end SuiteMigration
