import Mathlib.Tactic.Common
import SuiteMigration.Proofs.Tree.Filling
import SuiteMigration.Tree.Names

/-!
# Outlines of a tree

The outline of a tree has a mark for each token, in the order of the source. It tells the names that
are expressions from all other tokens, and it groups what stands in a closure, with the names that
the closure binds, and what stands in a list of statements, with a note about the list.

## Main definitions

* `Mark`, `Grouping` - a token, or a group of marks
* `Expr.outline`, `Statement.outline`, `SourceFile.outline` - the outline of a tree
* `plain` - the marks of tokens that are no expressions
-/

namespace SuiteMigration

/-! ### Marks -/

/-- What a group of marks stands for. -/
inductive Grouping (κ : Type)
  /-- A closure with the names that it binds, if it has a signature. -/
  | closure (names : Option (List String))
  /-- A list of statements with a note about it. -/
  | list (note : κ)

/-- A part of an outline. -/
inductive Mark (κ : Type)
  /-- A name that is an expression. -/
  | name (word : TokenKind × String)
  /-- Any other token. -/
  | word (word : TokenKind × String)
  /-- The marks between the ends of a closure or of a list. -/
  | group (kind : Grouping κ) (parts : List (Mark κ))

variable {κ : Type}

/-- The marks of tokens that are no expressions. -/
def plain (tokens : List Token) : List (Mark κ) :=
  (tokens.map Token.word).map .word

/-! ### The outline of a tree -/

mutual

def Expr.outline (note : List Statement → κ) : Expr → List (Mark κ)
  | .identifier token => [.name token.word]
  | .literal token => plain [token]
  | .member base period name => outlineOfExpr? note base ++ plain [period, name]
  | .call callee arguments closure =>
    callee.outline note ++ arguments.outline note ++ outlineOfClosure? note closure
  | .index base arguments => base.outline note ++ arguments.outline note
  | .sequence operands operators => outlineOfOperands note operands operators
  | .prefixed operator operand => plain [operator] ++ operand.outline note
  | .suffixed operand operator => operand.outline note ++ plain [operator]
  | .trying keyword mark operand => plain (keyword :: Node.tokens mark) ++ operand.outline note
  | .awaiting keyword operand => plain [keyword] ++ operand.outline note
  | .tuple elements => elements.outline note
  | .collection left elements right =>
    plain [left] ++ outlineOfElements note elements ++ plain [right]
  | .closure closure => closure.outline note
  | .specialized base arguments => base.outline note ++ plain arguments
  | .raw tokens => plain tokens

def outlineOfExpr? (note : List Statement → κ) : Option Expr → List (Mark κ)
  | none => []
  | some expr => expr.outline note

def ArgumentList.outline (note : List Statement → κ) : ArgumentList → List (Mark κ)
  | ⟨opener, arguments, closer⟩ =>
    plain [opener] ++ outlineOfArguments note arguments ++ plain [closer]

def CallArguments.outline (note : List Statement → κ) : CallArguments → List (Mark κ)
  | ⟨left, arguments, right⟩ =>
    plain (Node.tokens left) ++ outlineOfArguments note arguments ++ plain (Node.tokens right)

def outlineOfArguments (note : List Statement → κ) : List Argument → List (Mark κ)
  | [] => []
  | ⟨label, value, comma⟩ :: later =>
    plain (Node.tokens label) ++ value.outline note ++ plain (Node.tokens comma) ++
      outlineOfArguments note later

def outlineOfOperands (note : List Statement → κ) : List Expr → List Token → List (Mark κ)
  | [], _ => []
  | operand :: later, operators =>
    operand.outline note ++ plain (Node.tokens operators.head?) ++
      outlineOfOperands note later operators.tail

def outlineOfElements (note : List Statement → κ) : List CollectionElement → List (Mark κ)
  | [] => []
  | .value value comma :: later =>
    value.outline note ++ plain (Node.tokens comma) ++ outlineOfElements note later
  | .entry key colon value comma :: later =>
    key.outline note ++ plain [colon] ++ value.outline note ++ plain (Node.tokens comma) ++
      outlineOfElements note later

def Closure.outline (note : List Statement → κ) : Closure → List (Mark κ)
  | ⟨left, signature, statements, right⟩ =>
    [.group (.closure (signature.map ClosureSignature.parameterNames))
      (plain (left :: Node.tokens signature) ++
        [.group (.list (note statements)) (outlineOfStatements note statements)] ++
        plain [right])]

def outlineOfClosure? (note : List Statement → κ) : Option Closure → List (Mark κ)
  | none => []
  | some closure => closure.outline note

def Statement.outline (note : List Statement → κ) : Statement → List (Mark κ)
  | ⟨item, semicolon⟩ => item.outline note ++ plain (Node.tokens semicolon)

def outlineOfStatements (note : List Statement → κ) : List Statement → List (Mark κ)
  | [] => []
  | statement :: later => statement.outline note ++ outlineOfStatements note later

def Item.outline (note : List Statement → κ) : Item → List (Mark κ)
  | .expr expr => expr.outline note
  | .decl decl => decl.outline note
  | .returning keyword value => plain [keyword] ++ outlineOfExpr? note value
  | .throwing keyword value => plain [keyword] ++ value.outline note
  | .conditional statement => statement.outline note
  | .guarding keyword conditions elseKeyword body =>
    plain [keyword] ++ outlineOfConditions note conditions ++ plain [elseKeyword] ++
      body.outline note
  | .forIn keyword modifiers pattern type inKeyword sequence filter body =>
    plain (keyword :: modifiers ++ Node.tokens pattern ++ Node.tokens type ++ [inKeyword]) ++
      sequence.outline note ++ outlineOfClause? note filter ++ body.outline note
  | .whileLoop keyword conditions body =>
    plain [keyword] ++ outlineOfConditions note conditions ++ body.outline note
  | .repeatLoop keyword body whileKeyword condition =>
    plain [keyword] ++ body.outline note ++ plain [whileKeyword] ++ condition.outline note
  | .doCatch keyword throwsClause body catches =>
    plain (keyword :: throwsClause) ++ body.outline note ++ outlineOfCatches note catches
  | .switching keyword subject left cases right =>
    plain [keyword] ++ subject.outline note ++ plain [left] ++ outlineOfCases note cases ++
      plain [right]
  | .deferring keyword body => plain [keyword] ++ body.outline note
  | .raw tokens => plain tokens

def CodeBlock.outline (note : List Statement → κ) : CodeBlock → List (Mark κ)
  | ⟨left, statements, right⟩ =>
    plain [left] ++ [.group (.list (note statements)) (outlineOfStatements note statements)] ++
      plain [right]

def outlineOfBlock? (note : List Statement → κ) : Option CodeBlock → List (Mark κ)
  | none => []
  | some block => block.outline note

def IfStatement.outline (note : List Statement → κ) : IfStatement → List (Mark κ)
  | ⟨keyword, conditions, body, alternative⟩ =>
    plain [keyword] ++ outlineOfConditions note conditions ++ body.outline note ++
      alternative.outline note

def ElseClause.outline (note : List Statement → κ) : ElseClause → List (Mark κ)
  | .absent => []
  | .block keyword body => plain [keyword] ++ body.outline note
  | .chained keyword next => plain [keyword] ++ next.outline note

def outlineOfConditions (note : List Statement → κ) : List Condition → List (Mark κ)
  | [] => []
  | .expr expr comma :: later =>
    expr.outline note ++ plain (Node.tokens comma) ++ outlineOfConditions note later
  | .binding specifier pattern type initializer comma :: later =>
    plain (specifier :: Node.tokens pattern ++ Node.tokens type) ++
      outlineOfClause? note initializer ++ plain (Node.tokens comma) ++
      outlineOfConditions note later

def Clause.outline (note : List Statement → κ) : Clause → List (Mark κ)
  | ⟨mark, value⟩ => plain [mark] ++ value.outline note

def outlineOfClause? (note : List Statement → κ) : Option Clause → List (Mark κ)
  | none => []
  | some clause => clause.outline note

def outlineOfCatches (note : List Statement → κ) : List CatchClause → List (Mark κ)
  | [] => []
  | ⟨keyword, pattern, body⟩ :: later =>
    plain (keyword :: pattern) ++ body.outline note ++ outlineOfCatches note later

def outlineOfCases (note : List Statement → κ) : List SwitchCase → List (Mark κ)
  | [] => []
  | ⟨label, statements⟩ :: later =>
    plain label ++ [.group (.list (note statements)) (outlineOfStatements note statements)] ++
      outlineOfCases note later

def Decl.outline (note : List Statement → κ) : Decl → List (Mark κ)
  | .importing decl => plain (Node.tokens decl)
  | .type header members => plain (Node.tokens header) ++ members.outline note
  | .function header body => plain (Node.tokens header) ++ outlineOfBlock? note body
  | .variable header bindings => plain (Node.tokens header) ++ outlineOfBindings note bindings
  | .initializer header body => plain (Node.tokens header) ++ outlineOfBlock? note body
  | .finalizer header body => plain (Node.tokens header) ++ outlineOfBlock? note body
  | .raw decl => plain (Node.tokens decl)

def outlineOfBindings (note : List Statement → κ) : List PatternBinding → List (Mark κ)
  | [] => []
  | ⟨pattern, type, initializer, accessor, comma⟩ :: later =>
    plain (Node.tokens pattern ++ Node.tokens type) ++ outlineOfClause? note initializer ++
      outlineOfBlock? note accessor ++ plain (Node.tokens comma) ++ outlineOfBindings note later

end

/-- The outline of a file: one list of statements, and the token that ends it. -/
def SourceFile.outline (note : List Statement → κ) (file : SourceFile) : List (Mark κ) :=
  [.group (.list (note file.statements)) (outlineOfStatements note file.statements)] ++
    plain [file.endOfFile]

/-- The outline of a sequence whose operators are put together again. -/
theorem outlineOfOperands_toList_append (note : List Statement → κ) {operator : Option Token}
    {others operators : List Token} (first : operator.isSome = operators.head?.isSome)
    (length_eq : others.length = operators.tail.length) (operand : Expr) (later : List Expr) :
    outlineOfOperands note (operand :: later) (operator.toList ++ others) =
      operand.outline note ++ plain (Node.tokens operator) ++
        outlineOfOperands note later others := by
  cases operator with
  | none =>
    obtain rfl : operators = [] := by cases operators <;> simp_all
    obtain rfl : others = [] := List.eq_nil_of_length_eq_zero length_eq
    rfl
  | some operator => rfl

@[simp] theorem outlineOfStatements_append (note : List Statement → κ)
    (first second : List Statement) :
    outlineOfStatements note (first ++ second) =
      outlineOfStatements note first ++ outlineOfStatements note second := by
  induction first with
  | nil => rfl
  | cons statement first ih =>
    simp only [List.cons_append, outlineOfStatements, ih, List.append_assoc]

theorem outlineOfStatements_singleton (note : List Statement → κ) (statement : Statement) :
    outlineOfStatements note [statement] = statement.outline note := by
  simp only [outlineOfStatements, List.append_nil]

end SuiteMigration
