import SuiteMigration.Suite.Symbols
import SuiteMigration.Tree.Walk

/-!
# Writes to stored properties

A method of a structure must be marked if it changes a stored property, directly or through another
method. This module finds the direct writes of a body and the methods of the suite that it calls.

A write is an assignment, an argument passed by reference, or a call of a well-known mutating
method. What is written is the root of the target: `self.p`, which counts if `p` is stored, or a bare
name, which counts if it is stored and not the name of a local. Locals are collected along the walk
and stay visible until its end.

## Main definitions

* `WriteRoot`, `Expr.writeRoot?` - the name through which a target is written
* `Expr.writeTargets` - the targets that an expression writes itself
* `WriteReport`, `writeReport` - what a body does to the stored properties
-/

namespace SuiteMigration

/-- The operators that assign to the operand on their left. -/
def assignmentOperators : List String :=
  ["=", "+=", "-=", "*=", "/=", "%=", "&=", "|=", "^=", "<<=", ">>=", "&+=", "&-=", "&*=", "??="]

/-- The methods that change what they are called on. -/
def mutatingMethods : List String :=
  ["append", "insert", "remove", "removeAll", "removeFirst", "removeLast", "removeValue",
   "removeSubrange", "popLast", "popFirst", "sort", "reverse", "shuffle", "formUnion",
   "formIntersection", "subtract", "merge", "updateValue", "toggle", "negate"]

/-- The name through which a target is written. -/
inductive WriteRoot
  /-- `self.name` and whatever follows. -/
  | qualified (name : String)
  /-- `name` and whatever follows. -/
  | bare (name : String)
  deriving DecidableEq, Repr

/-- The root of a chain of members, indices, suffixes and single parentheses. -/
def Expr.writeRoot? : Expr → Option WriteRoot
  | .identifier token => some (.bare token.text)
  | .member (some base) _ name =>
    if base.isName "self" then some (.qualified name.text) else base.writeRoot?
  | .index base _ => base.writeRoot?
  | .suffixed operand _ => operand.writeRoot?
  | .tuple ⟨_, [⟨_, value, _⟩], _⟩ => value.writeRoot?
  | _ => none

/-- The operands to the left of assignments. -/
def assignedOperands : List Expr → List Token → List Expr
  | left :: operands, operator :: operators =>
    let targets := assignedOperands operands operators
    if assignmentOperators.contains operator.text then left :: targets else targets
  | _, _ => []

/-- The targets that an expression writes itself, its parts apart. -/
def Expr.writeTargets : Expr → List Expr
  | .sequence operands operators => assignedOperands operands operators
  | .prefixed operator operand => if operator.text == "&" then [operand] else []
  | .call (.member (some base) _ name) _ _ =>
    if !base.isName "self" && mutatingMethods.contains name.text then [base] else []
  | _ => []

/-- The method that an expression calls on its own instance, its parts apart. -/
def Expr.calledName? : Expr → Option WriteRoot
  | .call (.identifier token) _ _ => some (.bare token.text)
  | .call (.member (some base) _ name) _ _ =>
    if base.isName "self" then some (.qualified name.text) else none
  | _ => none

/-- What a body does to the stored properties of its suite. -/
structure WriteReport where
  /-- The body writes a stored property itself. -/
  mutates : Bool := false
  /-- The methods of the suite that the body calls. -/
  calls : List String := []
  deriving DecidableEq, Repr

/-- The state of the analysis. -/
structure WriteScan where
  locals : List String
  report : WriteReport := {}

/-- The root stands for one of the given names. A bare name that is a local stands for itself. -/
def WriteRoot.refersTo (root : WriteRoot) (names locals : List String) : Bool :=
  match root with
  | .qualified name => names.contains name
  | .bare name => names.contains name && !locals.contains name

/-- The analysis at an expression, its parts apart. -/
def WriteScan.expr (table : SymbolTable) (scan : WriteScan) (expr : Expr) : WriteScan :=
  let writes := expr.writeTargets.any fun target =>
    target.writeRoot?.any fun root => root.refersTo table.stored scan.locals
  let calls := match expr.calledName? with
    | some (.bare name) =>
      if (WriteRoot.bare name).refersTo table.methods scan.locals then [name] else []
    | some (.qualified name) =>
      if (WriteRoot.qualified name).refersTo table.methods scan.locals then [name] else []
    | none => []
  { scan with
    report :=
      { mutates := scan.report.mutates || writes, calls := scan.report.calls ++ calls } }

/-- The analysis at what is met on the walk. -/
def WriteScan.step (table : SymbolTable) (scan : WriteScan) : Visit → WriteScan
  | .expr expr => scan.expr table expr
  | .binds names => { scan with locals := scan.locals ++ names }
  | .closure _ | .decl _ => scan

/-- What a method does to the stored properties of its suite. -/
def writeReport (table : SymbolTable) (header : FunctionHeader) (body : Option CodeBlock) :
    WriteReport :=
  ((walkBlock? .oneBody body).foldl (WriteScan.step table)
    { locals := header.parameters.names }).report

end SuiteMigration
