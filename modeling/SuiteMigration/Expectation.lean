import SuiteMigration.Pass
import SuiteMigration.Tree.Layout

/-!
# Expectations

Assertions of the legacy framework become expectations. A table gives for each assertion the name
that replaces it and the condition that is built from its arguments. Arguments without a label are
kept in order, and those with one are dropped. A call with too few arguments is only renamed.

## Main definitions

* `Replacement`, `Synthesis`, `AssertionRule`, `assertionRules` - the table
* `negated`, `combined` - conditions built from arguments
* `positional`, `stripComma` - the arguments that are kept
* `migrateAssertion` - a call of an assertion as an expectation
* `assertionPass` - the pass
-/

namespace SuiteMigration

/-! ### The table -/

/-- What replaces the name of an assertion. -/
inductive Replacement
  | expect
  | require
  | issueRecord
  deriving DecidableEq, Repr

/-- The condition that is built from the arguments. -/
inductive Synthesis
  /-- The first argument as it is. -/
  | none
  /-- The first argument is false. -/
  | negate
  /-- The first two arguments with an operator between them. -/
  | compare (operator : String)
  /-- The first argument, an operator and `nil`. -/
  | nilCheck (operator : String)
  deriving DecidableEq, Repr

/-- How an assertion is migrated. -/
structure AssertionRule where
  replacement : Replacement
  synthesis : Synthesis
  deriving DecidableEq, Repr

/-- The assertions and their rules. -/
def assertionRules : List (String × AssertionRule) :=
  [("XCTAssert", ⟨.expect, .none⟩),
   ("XCTAssertTrue", ⟨.expect, .none⟩),
   ("XCTAssertFalse", ⟨.expect, .negate⟩),
   ("XCTAssertNil", ⟨.expect, .nilCheck "=="⟩),
   ("XCTAssertNotNil", ⟨.expect, .nilCheck "!="⟩),
   ("XCTAssertEqual", ⟨.expect, .compare "=="⟩),
   ("XCTAssertNotEqual", ⟨.expect, .compare "!="⟩),
   ("XCTAssertIdentical", ⟨.expect, .compare "==="⟩),
   ("XCTAssertNotIdentical", ⟨.expect, .compare "!=="⟩),
   ("XCTAssertGreaterThan", ⟨.expect, .compare ">"⟩),
   ("XCTAssertGreaterThanOrEqual", ⟨.expect, .compare ">="⟩),
   ("XCTAssertLessThan", ⟨.expect, .compare "<"⟩),
   ("XCTAssertLessThanOrEqual", ⟨.expect, .compare "<="⟩),
   ("XCTUnwrap", ⟨.require, .none⟩),
   ("XCTFail", ⟨.issueRecord, .none⟩)]

/-- The rule of an assertion. -/
def assertionRule? (name : String) : Option AssertionRule :=
  assertionRules.lookup name

/-! ### Arguments -/

/-- The arguments without a label, in order. -/
def positional (arguments : List Argument) : List Argument :=
  arguments.filter fun argument => argument.label.isNone

/-- The argument without its comma. A comment beside the comma moves to the value. -/
def Argument.withoutComma (argument : Argument) : Argument :=
  match argument.comma with
  | none => argument
  | some comma =>
    let value :=
      if comma.trailing.hasComment || comma.leading.hasComment then
        Node.setTrailing argument.value
          (Node.trailing argument.value ++ comma.leading ++ comma.trailing)
      else argument.value
    { argument with value, comma := none }

/-- The arguments without the comma after the last one. -/
def stripComma (arguments : List Argument) : List Argument :=
  modifyLast Argument.withoutComma arguments

/-! ### Conditions -/

/-- The name that replaces that of an assertion, with the trivia of the old one. -/
def Replacement.callee (replacement : Replacement) (old : Expr) : Expr :=
  let leading := Node.leading old
  let trailing := Node.trailing old
  let named (name : String) : Expr :=
    .identifier (((Token.ofName name).withLeading leading).withTrailing trailing)
  match replacement with
  | .expect => named "#expect"
  | .require => named "#require"
  | .issueRecord =>
    .member (some (.identifier ((Token.ofName "Issue").withLeading leading)))
      (.ofPunctuation '.') ((Token.ofName "record").withTrailing trailing)

/-- The operators of comparison, of logic and of the ternary, and two of the assignments. -/
def looseOperators : List String :=
  ["==", "!=", "===", "!==", "<", "<=", ">", ">=", "~=", "&&", "||", "?", ":", "<<=", ">>="]

/-- The operator binds no tighter than a comparison. An assignment ends with an equals sign and
does not begin like a comparison. -/
def isLooseOperator (operator : String) : Bool :=
  looseOperators.contains operator ||
    operator.toList.getLast? == some '=' &&
      !operator.toList.head?.any (['=', '!', '<', '>'].contains ·)

/-- The expression has an operator at the top that binds no tighter than a comparison. -/
def Expr.bindsLoosely : Expr → Bool
  | .sequence _ operators => operators.any fun operator => isLooseOperator operator.text
  | _ => false

/-- The expression is marked by `try` or `await`. -/
def Expr.isMarked : Expr → Bool
  | .trying .. | .awaiting .. => true
  | _ => false

/-- Two operands with an operator between them. An operand that binds loosely is put in
parentheses, and so is a marked one on the right. -/
def combined (left : Expr) (operator : String) (right : Expr) : Expr :=
  let left := if left.bindsLoosely then left.parenthesized else left
  let right := if right.bindsLoosely || right.isMarked then right.parenthesized else right
  .sequence [Node.setTrailing left "", Node.setLeading right ""]
    [((Token.ofOperator operator).withLeading .space).withTrailing .space]

/-- The operand must be put in parentheses before it is negated. -/
def Expr.needsParens : Expr → Bool
  | .sequence .. | .trying .. | .awaiting .. => true
  | _ => false

/-- The negation of an expression. -/
def negated (operand : Expr) : Expr :=
  let operand := if operand.needsParens then operand.parenthesized else operand
  .prefixed ((Token.ofOperator "!").withLeading (Node.leading operand))
    (Node.setLeading operand "")

/-- The arguments with the condition that is built from the first of them. Too few arguments are
left as they are. -/
def Synthesis.apply : Synthesis → List Argument → List Argument
  | .negate, first :: later => { first with value := negated first.value } :: later
  | .compare operator, left :: right :: later =>
    { label := Option.none, value := combined left.value operator right.value,
      comma := right.comma } :: later
  | .nilCheck operator, first :: later =>
    { first with value := combined first.value operator (.literal (.ofName "nil")) } :: later
  | _, arguments => arguments

/-! ### The pass -/

/-- The call of an assertion as an expectation. -/
def migrateAssertion (rule : AssertionRule) (callee : Expr) (list : CallArguments)
    (closure : Option Closure) : Expr :=
  .call (rule.replacement.callee callee)
    { list with arguments := stripComma (rule.synthesis.apply (positional list.arguments)) }
    closure

/-- The expectation that an expression becomes, if it is the call of an assertion with both
parentheses. -/
def Expr.expectation? : Expr → Option Expr
  | .call callee list trailing =>
    match callee.name?.bind assertionRule? with
    | some rule => if list.isClosed then some (migrateAssertion rule callee list trailing) else none
    | none => none
  | _ => none

/-- Assertions are migrated after their parts. The state counts them. -/
def assertionTransformer : Transformer Nat where
  expr _ parts := do
    let expr ← parts
    match expr.expectation? with
    | some expectation =>
      modify (· + 1)
      return expectation
    | none => return expr

/-- Assertions become expectations. -/
def assertionPass : Pass where
  name := "assertions"
  run := .ofTransformer assertionTransformer 0 id

end SuiteMigration
