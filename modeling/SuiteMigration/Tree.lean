import SuiteMigration.Token

/-!
# The tree of a source file

The part of the Swift grammar that test files use, as a tree that owns every token of its source.
What the grammar does not cover is kept as a raw run of tokens, so that a tree can be made from any
text and always gives the text back.

A node lists its parts in the order of the source. A declaration is split into its header, which
holds tokens only, and its body. The types are loose: an operator sequence has its operands and its
operators in two lists of any lengths, each parenthesis of a call may be absent on its own, and so
may any comma. Which of these trees are well formed is a property that reading establishes and that
every change keeps.

## Main definitions

* `Expr` with `ArgumentList` and `CallArguments` - expressions
* `Statement`, `Item`, `CodeBlock` - statements and blocks
* `Decl` with `TypeHeader`, `FunctionHeader`, `InitializerHeader`, `KeywordHeader` - declarations
* `SourceFile` - the statements of a file and the token that ends it
-/

namespace SuiteMigration

/-! ### Parts that hold tokens only -/

/-- An attribute such as `@testable` with its arguments, parentheses included. -/
structure Attribute where
  atSign : Token
  name : Token
  arguments : List Token

/-- A modifier such as `private(set)`. -/
structure Modifier where
  name : Token
  detail : List Token

/-- The type after a colon. -/
structure TypeAnnotation where
  colon : Token
  type : List Token

/-- What a binding binds: a plain name, or any other pattern. -/
inductive Pattern
  | identifier (token : Token)
  | raw (tokens : List Token)

/-- The label of an argument. -/
structure Label where
  name : Token
  colon : Token

/-- Capture list, parameters, effects and result of a closure, up to the keyword `in`. -/
structure ClosureSignature where
  tokens : List Token
  inKeyword : Token

/-- The parameters of a function or initializer. -/
structure ParameterClause where
  leftParen : Token
  parameters : List Token
  rightParen : Token

/-- A type that a declaration inherits from. -/
structure InheritedType where
  tokens : List Token
  comma : Option Token

/-- The types that a declaration inherits from. -/
structure InheritanceClause where
  colon : Token
  types : List InheritedType

/-- An import. The kind is the word `struct` in `import struct Foundation.Date`. -/
structure ImportDecl where
  attributes : List Attribute
  modifiers : List Modifier
  keyword : Token
  kind : Option Token
  path : List Token

/-- A declaration that is kept as it is, such as an enumeration case or a type alias. -/
structure RawDecl where
  attributes : List Attribute
  modifiers : List Modifier
  tokens : List Token

/-- The header of a class, structure, enumeration, actor, protocol or extension. The generic
parameters also hold the rest of a dotted extension name. -/
structure TypeHeader where
  attributes : List Attribute
  modifiers : List Modifier
  keyword : Token
  name : Token
  genericParameters : List Token
  inheritance : Option InheritanceClause
  whereClause : List Token

/-- The header of a function. The signature holds effects, result and constraints. -/
structure FunctionHeader where
  attributes : List Attribute
  modifiers : List Modifier
  keyword : Token
  name : Token
  genericParameters : List Token
  parameters : ParameterClause
  signature : List Token

/-- The header of an initializer. -/
structure InitializerHeader where
  attributes : List Attribute
  modifiers : List Modifier
  keyword : Token
  optionalMark : Option Token
  genericParameters : List Token
  parameters : ParameterClause
  signature : List Token

/-- A header that ends with its keyword: that of a finalizer, or of variables. -/
structure KeywordHeader where
  attributes : List Attribute
  modifiers : List Modifier
  keyword : Token

/-! ### Expressions, statements and declarations -/

mutual

/-- An expression. -/
inductive Expr
  | identifier (token : Token)
  | literal (token : Token)
  /-- `base.name`, or `.name` without a base. -/
  | member (base : Option Expr) (period name : Token)
  /-- A call with arguments, a trailing closure, or both. -/
  | call (callee : Expr) (arguments : CallArguments) (closure : Option Closure)
  | index (base : Expr) (arguments : ArgumentList)
  /-- A flat sequence of operands, each but the last followed by an operator. Assignments, casts and
  both marks of a ternary are operators. -/
  | sequence (operands : List Expr) (operators : List Token)
  | prefixed (operator : Token) (operand : Expr)
  | suffixed (operand : Expr) (operator : Token)
  | trying (keyword : Token) (mark : Option Token) (operand : Expr)
  | awaiting (keyword : Token) (operand : Expr)
  /-- Parentheses around any number of elements. -/
  | tuple (elements : ArgumentList)
  | collection (leftBracket : Token) (elements : List CollectionElement) (rightBracket : Token)
  | closure (closure : Closure)
  /-- A name with explicit generic arguments. -/
  | specialized (base : Expr) (arguments : List Token)
  /-- Tokens kept as they are. The empty run stands for no expression. -/
  | raw (tokens : List Token)

/-- Arguments between delimiters. -/
structure ArgumentList where
  opener : Token
  arguments : List Argument
  closer : Token

/-- The arguments of a call. A call with nothing but a trailing closure has no parentheses. -/
structure CallArguments where
  leftParen : Option Token
  arguments : List Argument
  rightParen : Option Token

/-- An argument with its label and the comma after it. -/
structure Argument where
  label : Option Label
  value : Expr
  comma : Option Token

/-- An element of an array literal, or an entry of a dictionary literal. -/
inductive CollectionElement
  | value (value : Expr) (comma : Option Token)
  | entry (key : Expr) (colon : Token) (value : Expr) (comma : Option Token)

/-- A closure. -/
structure Closure where
  leftBrace : Token
  signature : Option ClosureSignature
  statements : List Statement
  rightBrace : Token

/-- A statement and the semicolon after it. -/
structure Statement where
  item : Item
  semicolon : Option Token

/-- What a statement does. -/
inductive Item
  | expr (expr : Expr)
  | decl (decl : Decl)
  | returning (keyword : Token) (value : Option Expr)
  | throwing (keyword : Token) (value : Expr)
  | conditional (statement : IfStatement)
  | guarding (keyword : Token) (conditions : List Condition) (elseKeyword : Token)
      (body : CodeBlock)
  | forIn (keyword : Token) (modifiers : List Token) (pattern : Pattern)
      (type : Option TypeAnnotation) (inKeyword : Token) (sequence : Expr)
      (filter : Option Clause) (body : CodeBlock)
  | whileLoop (keyword : Token) (conditions : List Condition) (body : CodeBlock)
  | repeatLoop (keyword : Token) (body : CodeBlock) (whileKeyword : Token) (condition : Expr)
  | doCatch (keyword : Token) (throwsClause : List Token) (body : CodeBlock)
      (catches : List CatchClause)
  | switching (keyword : Token) (subject : Expr) (leftBrace : Token) (cases : List SwitchCase)
      (rightBrace : Token)
  | deferring (keyword : Token) (body : CodeBlock)
  /-- Tokens kept as they are. -/
  | raw (tokens : List Token)

/-- Statements between braces, also used for the members of a type and for accessors. -/
structure CodeBlock where
  leftBrace : Token
  statements : List Statement
  rightBrace : Token

/-- A conditional statement. -/
structure IfStatement where
  keyword : Token
  conditions : List Condition
  body : CodeBlock
  alternative : ElseClause

/-- What follows the body of a conditional statement. -/
inductive ElseClause
  | absent
  | block (keyword : Token) (body : CodeBlock)
  | chained (keyword : Token) (next : IfStatement)

/-- A condition and the comma after it. -/
inductive Condition
  | expr (expr : Expr) (comma : Option Token)
  /-- `let`, `var` or `case` with a pattern. -/
  | binding (specifier : Token) (pattern : Pattern) (type : Option TypeAnnotation)
      (initializer : Option Clause) (comma : Option Token)

/-- An expression behind the sign or keyword that introduces it, such as `= value`. -/
structure Clause where
  mark : Token
  value : Expr

/-- A handler of errors. -/
structure CatchClause where
  keyword : Token
  pattern : List Token
  body : CodeBlock

/-- A case with its label through the colon. Statements before the first label have none. -/
structure SwitchCase where
  label : List Token
  statements : List Statement

/-- A declaration. -/
inductive Decl
  | importing (decl : ImportDecl)
  | type (header : TypeHeader) (members : CodeBlock)
  | function (header : FunctionHeader) (body : Option CodeBlock)
  | variable (header : KeywordHeader) (bindings : List PatternBinding)
  | initializer (header : InitializerHeader) (body : Option CodeBlock)
  | finalizer (header : KeywordHeader) (body : Option CodeBlock)
  | raw (decl : RawDecl)

/-- One binding of a variable declaration. The accessor holds a computed body or observers. -/
structure PatternBinding where
  pattern : Pattern
  type : Option TypeAnnotation
  initializer : Option Clause
  accessor : Option CodeBlock
  comma : Option Token

end

/-- A source file. -/
structure SourceFile where
  statements : List Statement
  endOfFile : Token

/-! ### Small questions -/

namespace Attribute

/-- The attribute with the given name and no arguments. -/
def ofName (name : String) : Attribute :=
  { atSign := .ofPunctuation '@', name := .ofName name, arguments := [] }

end Attribute

namespace Modifier

/-- The modifier with the given name. -/
def ofName (name : String) : Modifier :=
  { name := .ofName name, detail := [] }

/-- The modifier has the given name. -/
def is (modifier : Modifier) (name : String) : Bool :=
  modifier.name.text == name

end Modifier

namespace Expr

/-- No expression. -/
def empty : Expr := .raw []

/-- There is no expression. -/
def isEmpty : Expr → Bool
  | .raw [] => true
  | _ => false

/-- The name of a plain identifier. -/
def name? : Expr → Option String
  | .identifier token => some token.text
  | _ => none

/-- The expression is the given name. -/
def isName (expr : Expr) (name : String) : Bool :=
  expr.name? == some name

end Expr

namespace CallArguments

/-- No arguments and no parentheses. -/
def absent : CallArguments :=
  { leftParen := none, arguments := [], rightParen := none }

/-- The arguments between two parentheses. -/
def ofList (list : ArgumentList) : CallArguments :=
  { leftParen := some list.opener, arguments := list.arguments, rightParen := some list.closer }

/-- Both parentheses are there, and the closing one stands in the source. -/
def isClosed (list : CallArguments) : Bool :=
  list.leftParen.isSome && list.rightParen.any fun token => !token.isMissing

end CallArguments

namespace Argument

/-- An argument without label and comma. -/
def ofValue (value : Expr) : Argument :=
  { label := none, value, comma := none }

end Argument

namespace Statement

/-- A statement without semicolon. -/
def ofItem (item : Item) : Statement :=
  { item, semicolon := none }

/-- The expression that the statement evaluates. -/
def expr? (statement : Statement) : Option Expr :=
  match statement.item with
  | .expr expr => some expr
  | _ => none

/-- The declaration that the statement makes. -/
def decl? (statement : Statement) : Option Decl :=
  match statement.item with
  | .decl decl => some decl
  | _ => none

end Statement

namespace CodeBlock

/-- The block that stands where the source omits one. -/
def missing : CodeBlock :=
  { leftBrace := .missing .leftBrace, statements := [], rightBrace := .missing .rightBrace }

/-- The declarations among the statements. -/
def decls (block : CodeBlock) : List Decl :=
  block.statements.filterMap Statement.decl?

end CodeBlock

namespace ImportDecl

/-- The whole path is the given module. -/
def isModule (decl : ImportDecl) (name : String) : Bool :=
  match decl.path with
  | [token] => token.text == name
  | _ => false

end ImportDecl

namespace FunctionHeader

/-- The function has the given attribute. -/
def hasAttribute (header : FunctionHeader) (name : String) : Bool :=
  header.attributes.any fun attr => attr.name.text == name

/-- The function has the given modifier. -/
def hasModifier (header : FunctionHeader) (name : String) : Bool :=
  header.modifiers.any fun modifier => modifier.is name

/-- The effects in the signature, up to the arrow of the result. -/
def effects (header : FunctionHeader) : List Token :=
  (header.signature.takeWhile fun token => token.kind != .arrow).filter fun token =>
    ["async", "throws", "rethrows", "reasync"].contains token.text

end FunctionHeader

namespace SourceFile

/-- The imports of the file. -/
def imports (file : SourceFile) : List ImportDecl :=
  file.statements.filterMap fun statement =>
    match statement.item with
    | .decl (.importing decl) => some decl
    | _ => none

end SourceFile

end SuiteMigration
