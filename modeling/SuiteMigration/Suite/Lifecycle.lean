import SuiteMigration.Import
import SuiteMigration.Suite.Symbols

/-!
# Lifecycle

The method that prepares each test becomes the initializer of its suite, and the one that cleans up
becomes the finalizer. Calls of the inherited methods are removed from their bodies; a comment above
a removed call stays in place.

## Main definitions

* `Lifecycle`, `lifecycle?` - which hook a method is
* `dropModifiers` - modifiers without those that a declaration cannot keep
* `removeSuperCalls` - a body without calls of the inherited hook
* `toInitializer`, `toFinalizer` - a hook as an initializer, or as a finalizer
-/

namespace SuiteMigration

/-- A hook that the legacy framework runs around each test. -/
inductive Lifecycle
  | setUp
  | tearDown
  deriving DecidableEq, Repr

/-- The methods that run before each test. -/
def setUpNames : List String :=
  ["setUp", "setUpWithError"]

/-- The names of the methods that make the hook. -/
def Lifecycle.names : Lifecycle → List String
  | .setUp => setUpNames
  | .tearDown => tearDownNames

/-- The hook that a method is. It belongs to instances and has no parameters. -/
def FunctionHeader.lifecycle? (header : FunctionHeader) : Option Lifecycle :=
  if !header.parameters.parameters.isEmpty || header.hasModifier "class" ||
      header.hasModifier "static" then none
  else if setUpNames.contains header.name.text then some .setUp
  else if tearDownNames.contains header.name.text then some .tearDown
  else none

/-! ### Modifiers -/

/-- The modifiers that are kept, and the trivia that the token after them takes over. The leading
trivia of a dropped modifier pass to what comes next. -/
def dropModifiers (drops : Modifier → Bool) (pending : Option Trivia) :
    List Modifier → List Modifier × Option Trivia
  | [] => ([], pending)
  | modifier :: later =>
    if drops modifier then
      dropModifiers drops (some (pending.getD modifier.name.leading)) later
    else
      let name := modifier.name.withLeading (pending.getD modifier.name.leading)
      let (kept, pending) := dropModifiers drops none later
      ({ modifier with name } :: kept, pending)

/-- The modifiers that are kept, and the token after them with the trivia it takes over. -/
def filterModifiers (drops : Modifier → Bool) (modifiers : List Modifier) (next : Token) :
    List Modifier × Token :=
  let (kept, pending) := dropModifiers drops none modifiers
  (kept, next.withLeading (pending.getD next.leading))

/-- The modifiers that an initializer cannot keep. -/
def initializerDrops : List String :=
  ["override", "final", "open", "convenience"]

/-! ### Bodies -/

/-- The expression under all marks `try` and `await`. -/
def Expr.unmarked : Expr → Expr
  | .trying _ _ operand => operand.unmarked
  | .awaiting _ operand => operand.unmarked
  | expr => expr

/-- The statement calls one of the given methods of the superclass. -/
def Statement.isSuperCall (statement : Statement) (names : List String) : Bool :=
  match statement.expr?.map Expr.unmarked with
  | some (.call (.member (some base) _ name) _ _) =>
    base.isName "super" && names.contains name.text
  | _ => false

/-- The statements without calls of the given inherited methods, and what is carried over to the
end of the block. -/
def dropSuperCalls (names : List String) (carried : Option Trivia) :
    List Statement → List Statement × Option Trivia
  | [] => ([], carried)
  | statement :: later =>
    let statement := statement.withCarried carried
    if statement.isSuperCall names then dropSuperCalls names statement.carriedTrivia later
    else
      let (kept, carried) := dropSuperCalls names none later
      (statement :: kept, carried)

/-- The block without calls of the inherited hook. -/
def removeSuperCalls (lifecycle : Lifecycle) (block : CodeBlock) : CodeBlock :=
  let (statements, carried) := dropSuperCalls lifecycle.names none block.statements
  let rightBrace := match carried with
    | none => block.rightBrace
    | some removed =>
      block.rightBrace.withLeading (Trivia.merge removed block.rightBrace.leading)
  { block with statements, rightBrace }

/-! ### Declarations -/

/-- The parameters with nothing between the parentheses. -/
def ParameterClause.emptied (clause : ParameterClause) : ParameterClause :=
  { leftParen := clause.leftParen.withTrailing ""
    parameters := []
    rightParen := clause.rightParen.withLeading "" }

/-- The token with a space after it if nothing follows it. -/
def Token.spaced (token : Token) : Token :=
  if token.trailing.isEmpty then token.withTrailing .space else token

/-- The effects of a signature. The result and everything after it are dropped. -/
def effectTokens (signature : List Token) : List Token :=
  let beforeResult := signature.takeWhile fun token =>
    token.kind != .arrow && !token.isKeyword "where"
  modifyLast Token.spaced
    (beforeResult.filter fun token => ["async", "throws", "rethrows"].contains token.text)

/-- The hook before each test as an initializer. -/
def toInitializer (header : FunctionHeader) (body : Option CodeBlock) : Decl :=
  let (modifiers, keyword) := filterModifiers
    (fun modifier => initializerDrops.contains modifier.name.text) header.modifiers header.keyword
  .initializer
    { attributes := header.attributes
      modifiers
      keyword :=
        ((Token.ofName "init").withLeading keyword.leading).withTrailing header.name.trailing
      optionalMark := none
      genericParameters := []
      parameters := header.parameters.emptied
      signature := effectTokens header.signature }
    (body.map (removeSuperCalls .setUp))

/-- The hook after each test as a finalizer. -/
def toFinalizer (header : FunctionHeader) (body : Option CodeBlock) : Decl :=
  let (_, keyword) := filterModifiers (fun _ => true) header.modifiers header.keyword
  .finalizer
    { attributes := header.attributes
      modifiers := []
      keyword := ((Token.ofName "deinit").withLeading keyword.leading).withTrailing .space }
    (body.map (removeSuperCalls .tearDown))

end SuiteMigration
