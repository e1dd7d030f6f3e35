import SuiteMigration.Reading.Lookahead
import SuiteMigration.Tree

/-!
# Reading headers

The parts of the grammar that hold tokens only: attributes and modifiers, imports, inheritance and
parameter clauses, annotations and patterns.

## Main definitions

* `Cursor.attributes`, `Cursor.modifiers` - what stands before the keyword of a declaration
* `Parser.importDecl`, `Parser.typeHeader`, `Parser.functionHeader`, `Parser.initializerHeader` -
  the headers of declarations
* `Parser.pattern`, `Parser.typeAnnotation` - what a binding starts with
-/

namespace SuiteMigration

namespace Cursor

/-- A group attached to what was just read, empty without one. -/
def takeAttachedGroup (cursor : Cursor) : List Token × Cursor :=
  cursor.take cursor.attachedGroup

/-- The attributes that begin here. -/
def attributes : Nat → Cursor → List Attribute × Cursor
  | 0, cursor => ([], cursor)
  | fuel + 1, cursor =>
    if cursor.isAt .atSign && cursor.second.kind == .identifier then
      let (atSign, afterSign) := cursor.bump
      let (name, afterName) := afterSign.bump
      let (arguments, next) := afterName.takeAttachedGroup
      let (later, rest) := attributes fuel next
      ({ atSign, name, arguments } :: later, rest)
    else ([], cursor)

/-- The modifiers that begin here. -/
def modifiers : Nat → Cursor → List Modifier × Cursor
  | 0, cursor => ([], cursor)
  | fuel + 1, cursor =>
    if cursor.atModifier then
      let (name, afterName) := cursor.bump
      let (detail, next) := afterName.takeAttachedGroup
      let (later, rest) := modifiers fuel next
      ({ name, detail } :: later, rest)
    else ([], cursor)

/-- The types of an inheritance clause, from after its colon on. -/
def inheritedTypes : Nat → Cursor → List InheritedType × Cursor
  | 0, cursor => ([], cursor)
  | fuel + 1, cursor =>
    let (tokens, afterType) := cursor.take cursor.inheritedRun
    if afterType.isAt .comma then
      let (comma, next) := afterType.bump
      let (later, rest) := inheritedTypes fuel next
      ({ tokens, comma := some comma } :: later, rest)
    else if tokens.isEmpty then ([], afterType)
    else ([{ tokens, comma := none }], afterType)

/-- The parameters that begin here. They are missing without an opening parenthesis. -/
def parameterClause (cursor : Cursor) : ParameterClause × Cursor :=
  if cursor.isAt .leftParen then
    let (leftParen, afterParen) := cursor.bump
    let (group, rest) := afterParen.take (cursor.balanced - 1)
    match group.getLast? with
    | some last =>
      if last.kind == .rightParen then
        ({ leftParen, parameters := group.dropLast, rightParen := last }, rest)
      else ({ leftParen, parameters := group, rightParen := .missing .rightParen }, rest)
    | none => ({ leftParen, parameters := [], rightParen := .missing .rightParen }, rest)
  else
    ({ leftParen := .missing .leftParen, parameters := [], rightParen := .missing .rightParen },
      cursor)

/-- A plain name stands at the cursor, and the token after it ends the pattern. -/
def atPlainPattern (cursor : Cursor) : Bool :=
  let next := cursor.second
  cursor.isAt .identifier && !cursor.peek.isReserved &&
    ([TokenKind.colon, .comma, .leftBrace, .rightBrace, .rightParen, .semicolon,
        .endOfFile].contains next.kind ||
      next.isOperator "=" || next.isKeyword "in" || next.isKeyword "else" ||
      lineBreakBetween (some cursor.peek) next)

end Cursor

namespace Parser

/-- Attributes. -/
def attributes : Parser (List Attribute) :=
  part fun cursor => cursor.attributes cursor.pending.length

/-- Modifiers. -/
def modifiers : Parser (List Modifier) :=
  part fun cursor => cursor.modifiers cursor.pending.length

/-- A pattern. -/
def pattern : Parser Pattern := do
  if ← ask Cursor.atPlainPattern then .identifier <$> bump
  else .raw <$> run Cursor.patternRun

/-- A type annotation if a colon stands at the cursor. -/
def typeAnnotation : Parser (Option TypeAnnotation) := do
  match ← bumpIf (·.isAt .colon) with
  | none => return none
  | some colon =>
    let type ← run Cursor.typeRun
    return some { colon, type }

/-- An import, from its keyword on. -/
def importDecl (attributes : List Attribute) (modifiers : List Modifier) : Parser ImportDecl := do
  let keyword ← bump
  let kind ← bumpIf fun cursor =>
    importKinds.contains cursor.peek.text && cursor.second.kind == .identifier
  let path ← run Cursor.importRun
  return { attributes, modifiers, keyword, kind, path }

/-- An inheritance clause if a colon stands at the cursor. -/
def inheritanceClause : Parser (Option InheritanceClause) := do
  match ← bumpIf (·.isAt .colon) with
  | none => return none
  | some colon =>
    let types ← part fun cursor => cursor.inheritedTypes (cursor.pending.length + 1)
    return some { colon, types }

/-- The header of a type, from its keyword on. -/
def typeHeader (attributes : List Attribute) (modifiers : List Modifier) : Parser TypeHeader := do
  let keyword ← bump
  let name ← expect .identifier
  let genericParameters ← run Cursor.typeNameRun
  let inheritance ← inheritanceClause
  let whereClause ← run Cursor.constraintRun
  return { attributes, modifiers, keyword, name, genericParameters, inheritance, whereClause }

/-- The header of a function, from its keyword on. A function can be named by an operator. -/
def functionHeader (attributes : List Attribute) (modifiers : List Modifier) :
    Parser FunctionHeader := do
  let keyword ← bump
  let name ← bumpIf fun cursor => cursor.isAt .identifier || cursor.isAt .operator
  let name := name.getD (.missing .identifier)
  let genericParameters ← run Cursor.genericParameters
  let parameters ← part Cursor.parameterClause
  let signature ← run Cursor.signatureRun
  return { attributes, modifiers, keyword, name, genericParameters, parameters, signature }

/-- The header of an initializer, from its keyword on. -/
def initializerHeader (attributes : List Attribute) (modifiers : List Modifier) :
    Parser InitializerHeader := do
  let keyword ← bump
  let optionalMark ← optionalMark
  let genericParameters ← run Cursor.genericParameters
  let parameters ← part Cursor.parameterClause
  let signature ← run Cursor.signatureRun
  return { attributes, modifiers, keyword, optionalMark, genericParameters, parameters, signature }

/-- A declaration that is kept as it is, from its keyword on. -/
def rawDecl (attributes : List Attribute) (modifiers : List Modifier) : Parser RawDecl := do
  let tokens ← run Cursor.rawDeclarationRun
  return { attributes, modifiers, tokens }

end Parser

end SuiteMigration
