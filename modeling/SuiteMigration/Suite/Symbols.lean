import SuiteMigration.Tree.Names

/-!
# The symbols of a suite

What the members of a suite declare: the stored properties and the methods, which other members can
refer to by their bare names, and whether something has to run when an instance goes away.

## Main definitions

* `SymbolTable` - the stored properties and methods
* `SuiteContext` - what the migration of a member needs to know of its suite
-/

namespace SuiteMigration

/-- The names that a suite declares on its instances. -/
structure SymbolTable where
  stored : List String := []
  methods : List String := []
  deriving DecidableEq, Repr

namespace SymbolTable

/-- The name is that of a stored property or of a method. -/
def contains (table : SymbolTable) (name : String) : Bool :=
  table.stored.contains name || table.methods.contains name

end SymbolTable

/-- The statement of an accessor is an observer. -/
def Statement.isObserver (statement : Statement) : Bool :=
  let name := match statement.item with
    | .expr (.call callee _ _) => callee.name?
    | .expr expr => expr.name?
    | _ => none
  name == some "willSet" || name == some "didSet"

/-- The binding has accessors other than observers, and so stores nothing. -/
def PatternBinding.isComputed (binding : PatternBinding) : Bool :=
  binding.accessor.any fun block => !block.statements.all Statement.isObserver

/-- The names of the stored properties that a declaration adds to the instances of its type. -/
def Decl.storedNames : Decl → List String
  | .variable header bindings =>
    if isTypeLevel header.modifiers then []
    else bindingNames (bindings.filter fun binding => !binding.isComputed)
  | _ => []

/-- The name of the method that a declaration adds. -/
def Decl.methodName? : Decl → Option String
  | .function header _ => some header.name.text
  | _ => none

/-- The symbols that the members of a type declare. Nested types, computed properties and
type-level properties add nothing. -/
def SymbolTable.ofMembers (members : CodeBlock) : SymbolTable :=
  { stored := members.decls.flatMap Decl.storedNames
    methods := members.decls.filterMap Decl.methodName? }

/-- The methods that run after each test. -/
def tearDownNames : List String :=
  ["tearDown", "tearDownWithError"]

/-- The declaration runs something when an instance goes away. -/
def Decl.isTeardown : Decl → Bool
  | .function header _ => tearDownNames.contains header.name.text
  | .finalizer _ _ => true
  | _ => false

/-- What the migration of a member needs to know of its suite. -/
structure SuiteContext where
  symbols : SymbolTable
  hasTeardown : Bool

/-- The context that the members of a suite make. -/
def SuiteContext.ofMembers (members : CodeBlock) : SuiteContext :=
  { symbols := .ofMembers members, hasTeardown := members.decls.any Decl.isTeardown }

end SuiteMigration
