import SuiteMigration.Strategy
import SuiteMigration.Suite.Lifecycle
import SuiteMigration.Suite.Qualification
import SuiteMigration.Suite.Writes

/-!
# Conversion of suites

A class that inherits from the legacy base becomes a suite of the new framework. The base is removed
from its inheritance clause, the hooks around each test become initializer and finalizer, test
methods get an attribute, and the members are adapted to the strategy: references inside closures are
qualified in a class, and methods that write stored properties are marked in a structure.

Other classes stay as they are, and suites nested in them are still found. Bodies of functions are
not searched.

## Main definitions

* `TypeHeader.isEligible` - the header is that of a suite to convert
* `removeBase`, `addNoncopyable` - the two changes of an inheritance clause
* `convertMember` - a member of a suite
* `mutatingNames`, `markMutating` - the methods that need the mark
* `convertSuite` - a suite
* `suitePass` - the pass
-/

namespace SuiteMigration

/-- The class from which legacy suites inherit. -/
def legacyBase : String := "XCTestCase"

/-- The attribute of test methods. -/
def testAttribute : String := "Test"

/-! ### The inheritance clause -/

/-- The type is the legacy base, with or without its module. -/
def InheritedType.isLegacyBase (type : InheritedType) : Bool :=
  type.name == legacyBase || type.name == legacyModule ++ "." ++ legacyBase

/-- The place of the legacy base among the inherited types. -/
def TypeHeader.baseIndex? (header : TypeHeader) : Option Nat :=
  header.inheritance.bind fun clause => clause.types.findIdx? InheritedType.isLegacyBase

/-- A class that inherits from the legacy base. -/
def TypeHeader.isEligible (header : TypeHeader) : Bool :=
  header.keyword.isKeyword "class" && header.baseIndex?.isSome

/-- The header with a change to the token right before the inheritance clause. -/
def TypeHeader.modifyNameEnd (header : TypeHeader) (change : Token → Token) : TypeHeader :=
  if header.genericParameters.isEmpty then { header with name := change header.name }
  else { header with genericParameters := modifyLast change header.genericParameters }

/-- The trivia right before the inheritance clause. -/
def TypeHeader.nameTrailing (header : TypeHeader) : Trivia :=
  (header.genericParameters.getLastD header.name).trailing

/-- The types that are left when the type at the index is removed. The last type has no comma, and
the trivia at the ends of the clause stay. -/
def removeInherited (types : List InheritedType) (index : Nat) (removed : InheritedType) :
    List InheritedType :=
  let rest := types.eraseIdx index
  -- The last type hands its trailing trivia to its predecessor, the first one its leading trivia to
  -- its successor.
  if index = rest.length then
    modifyLast
      (fun last =>
        { tokens := Node.setTrailing last.tokens (Node.trailing removed.tokens), comma := none })
      rest
  else if index = 0 then
    modifyFirst
      (fun first =>
        { first with tokens := Node.setLeading first.tokens (Node.leading removed.tokens) })
      rest
  else rest

/-- The header without the legacy base. -/
def removeBase (header : TypeHeader) : TypeHeader :=
  match header.inheritance, header.baseIndex? with
  | some clause, some index =>
    match clause.types[index]? with
    | some removed =>
      if (clause.types.eraseIdx index).isEmpty then
        { header with inheritance := none }.modifyNameEnd (·.withTrailing .space)
      else
        let types := removeInherited clause.types index removed
        { header with inheritance := some { clause with types } }
    | none => header
  | _, _ => header

/-- The constraint that lets a structure have a finalizer. -/
def noncopyable : String := "~Copyable"

/-- The constraint as an inherited type, with the given trivia after it. -/
def noncopyableType (trailing : Trivia) : InheritedType :=
  { tokens := [.ofOperator "~", (Token.ofName "Copyable").withTrailing trailing], comma := none }

/-- A type that is followed by another one. -/
def InheritedType.followed (type : InheritedType) : InheritedType :=
  { tokens := Node.setTrailing type.tokens ""
    comma := some ((Token.ofPunctuation ',').withTrailing .space) }

/-- The header names the constraint. -/
def TypeHeader.isNoncopyable (header : TypeHeader) : Bool :=
  header.inheritance.any fun clause => clause.types.any fun type => type.name == noncopyable

/-- The header with the constraint, unless it names it already. -/
def addNoncopyable (header : TypeHeader) : TypeHeader :=
  if header.isNoncopyable then header
  else match header.inheritance with
    | some clause =>
      let trailing := match clause.types.getLast? with
        | some last => Node.trailing last.tokens
        | none => ""
      let types := modifyLast InheritedType.followed clause.types ++ [noncopyableType trailing]
      { header with inheritance := some { clause with types } }
    | none =>
      let clause : InheritanceClause :=
        { colon := (Token.ofPunctuation ':').withTrailing .space
          types := [noncopyableType header.nameTrailing] }
      { header with inheritance := some clause }.modifyNameEnd (·.withTrailing "")

/-! ### Members -/

/-- The modifiers that a member of a structure cannot keep. -/
def valueTypeDrops : List String :=
  ["override", "final", "open", "convenience", "required"]

/-- The modifier cannot stay on a member of a structure. -/
def isValueTypeDrop (modifier : Modifier) : Bool :=
  valueTypeDrops.contains modifier.name.text

/-- A structure has static members where a class has class members. -/
def Modifier.staticForClass (modifier : Modifier) : Modifier :=
  if modifier.is "class" then { modifier with name := { modifier.name with text := "static" } }
  else modifier

/-- The header of a method of a structure. -/
def FunctionHeader.forValueType (header : FunctionHeader) : FunctionHeader :=
  let (modifiers, keyword) := filterModifiers isValueTypeDrop header.modifiers header.keyword
  { header with modifiers := modifiers.map Modifier.staticForClass, keyword }

/-- The header of variables of a structure. -/
def KeywordHeader.forValueType (header : KeywordHeader) : KeywordHeader :=
  let (modifiers, keyword) := filterModifiers isValueTypeDrop header.modifiers header.keyword
  { header with modifiers := modifiers.map Modifier.staticForClass, keyword }

/-- The header of an initializer of a structure. -/
def InitializerHeader.forValueType (header : InitializerHeader) : InitializerHeader :=
  let (modifiers, keyword) := filterModifiers isValueTypeDrop header.modifiers header.keyword
  { header with modifiers, keyword }

/-- The legacy framework runs the method as a test: it belongs to instances, has no parameters, and
its name says so. -/
def FunctionHeader.isTestCandidate (header : FunctionHeader) : Bool :=
  header.name.startsWith "test" && header.parameters.parameters.isEmpty &&
    !isTypeLevel header.modifiers

/-- The new framework runs the method as a test. -/
def FunctionHeader.isTest (header : FunctionHeader) : Bool :=
  header.hasAttribute testAttribute || header.isTestCandidate

/-- The attribute of test methods behind the given trivia. -/
def testMark (leading : Trivia) : Attribute :=
  let mark := Attribute.ofName testAttribute
  { mark with
    atSign := mark.atSign.withLeading leading, name := mark.name.withTrailing .space }

/-- The header with the attribute of test methods after all other attributes. -/
def FunctionHeader.withTestMark (header : FunctionHeader) : FunctionHeader :=
  match header.modifiers with
  | [] =>
    { header with
      attributes := header.attributes ++ [testMark header.keyword.leading]
      keyword := header.keyword.withLeading "" }
  | first :: later =>
    { header with
      attributes := header.attributes ++ [testMark first.name.leading]
      modifiers := { first with name := first.name.withLeading "" } :: later }

/-- A method of a suite. -/
def convertFunction (strategy : Strategy) (context : SuiteContext) (header : FunctionHeader)
    (body : Option CodeBlock) : Decl :=
  match header.lifecycle? with
  | some .setUp => toInitializer header body
  | some .tearDown => toFinalizer header body
  | none =>
    let header := if strategy = .value then header.forValueType else header
    let header :=
      if header.isTestCandidate && !header.hasAttribute testAttribute then header.withTestMark
      else header
    -- Only a class has to name the instance in closures, and the mark of a test is set by now.
    let body :=
      if strategy = .reference && header.isTest then
        (qualifyBody context.symbols header body).1
      else body
    .function header body

/-- A declaration among the members of a suite. -/
def convertDecl (strategy : Strategy) (context : SuiteContext) : Decl → Decl
  | .function header body => convertFunction strategy context header body
  | .variable header bindings =>
    .variable (if strategy = .value then header.forValueType else header) bindings
  | .initializer header body =>
    .initializer (if strategy = .value then header.forValueType else header) body
  | decl => decl

/-- A member of a suite. -/
def convertMember (strategy : Strategy) (context : SuiteContext) (statement : Statement) :
    Statement :=
  match statement.item with
  | .decl decl => { statement with item := .decl (convertDecl strategy context decl) }
  | _ => statement

/-! ### Methods that need the mark `mutating` -/

/-- What an instance method does, by its name. A method that has the mark counts as writing. -/
def Decl.report? (table : SymbolTable) : Decl → Option (String × WriteReport)
  | .function header body =>
    if isTypeLevel header.modifiers then none
    else
      let report := writeReport table header body
      some (header.name.text,
        { report with mutates := report.mutates || header.hasModifier "mutating" })
  | _ => none

/-- The names with those added whose method calls one of them. -/
def addCallers (reports : List (String × WriteReport)) (names : List String) : List String :=
  reports.foldl
    (fun names (name, report) =>
      if report.calls.any names.contains && !names.contains name then name :: names else names)
    names

/-- The names added by the given number of rounds. -/
def addCallersFor (reports : List (String × WriteReport)) : Nat → List String → List String
  | 0, names => names
  | rounds + 1, names => addCallersFor reports rounds (addCallers reports names)

/-- The names of the methods that write stored properties, directly or through other methods. Every
round that is not the last adds a name, so there are at most as many rounds as methods. -/
def mutatingNames (reports : List (String × WriteReport)) : List String :=
  addCallersFor reports reports.length
    ((reports.filter fun (_, report) => report.mutates).map Prod.fst)

/-- The header with the mark. -/
def FunctionHeader.withMutating (header : FunctionHeader) : FunctionHeader :=
  let mark := Modifier.ofName "mutating"
  let mark := { mark with
    name := (mark.name.withLeading header.keyword.leading).withTrailing .space }
  { header with
    modifiers := header.modifiers ++ [mark]
    keyword := header.keyword.withLeading "" }

/-- A member with the mark, if it is an instance method with one of the given names. -/
def markMember (names : List String) (statement : Statement) : Statement :=
  match statement.item with
  | .decl (.function header body) =>
    if names.contains header.name.text && !header.hasModifier "mutating" &&
        !isTypeLevel header.modifiers then
      { statement with item := .decl (.function header.withMutating body) }
    else statement
  | _ => statement

/-- The members with marks on all methods that need them. -/
def markMutating (table : SymbolTable) (members : CodeBlock) : CodeBlock :=
  let names := mutatingNames (members.decls.filterMap (Decl.report? table))
  { members with statements := members.statements.map (markMember names) }

/-! ### Suites -/

/-- The modifier cannot stay on a structure. -/
def isTypeDrop (modifier : Modifier) : Bool :=
  modifier.is "final" || modifier.is "open"

/-- The header of a class as that of a structure. -/
def TypeHeader.toStruct (header : TypeHeader) : TypeHeader :=
  let (modifiers, keyword) := filterModifiers isTypeDrop header.modifiers header.keyword
  { header with modifiers, keyword := { keyword with text := "struct" } }

/-- A suite of the new framework. -/
def convertSuite (strategy : Strategy) (header : TypeHeader) (members : CodeBlock) : Decl :=
  let context := SuiteContext.ofMembers members
  let header := removeBase header
  let members :=
    { members with statements := members.statements.map (convertMember strategy context) }
  match strategy with
  | .reference => .type header members
  | .value =>
    let header := header.toStruct
    .type (if context.hasTeardown then addNoncopyable header else header)
      (markMutating context.symbols members)

/-- Suites are converted where types are declared. The state counts them. -/
def suiteTransformer (strategy : Strategy) : Transformer Nat where
  decl decl parts :=
    match decl with
    | .type header members =>
      if header.isEligible then do
        modify (· + 1)
        return convertSuite strategy header members
      else parts
    -- A class inside a function is no suite.
    | .function .. => pure decl
    | _ => parts

/-- Legacy classes become suites. -/
def suitePass (strategy : Strategy) : Pass where
  name := "suites"
  run := .ofTransformer (suiteTransformer strategy) 0 id

end SuiteMigration
