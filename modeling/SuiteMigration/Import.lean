import SuiteMigration.Pass
import SuiteMigration.Tree.Layout

/-!
# Imports

The first import of the legacy framework becomes an import of its successor, and further ones are
dropped. A comment above a dropped import moves to the statement after it. A file that imports the
successor and mentions no legacy name is migrated already, and nothing more is done with it.

## Main definitions

* `legacyModule`, `targetModule` - the two frameworks
* `migrateImports` - the statements of a file with their imports migrated
* `importPass` - the pass
-/

namespace SuiteMigration

/-- The framework that is migrated from. -/
def legacyModule : String := "XCTest"

/-- The framework that is migrated to. -/
def targetModule : String := "Testing"

/-- With these characters every name of the legacy framework begins. -/
def legacyStart : String := "XCT"

namespace Statement

/-- The statement imports the given module as a whole. -/
def isImportOf (statement : Statement) (module : String) : Bool :=
  match statement.item with
  | .decl (.importing decl) => decl.isModule module
  | _ => false

/-- The import names the given module instead of its own. -/
def withModule (statement : Statement) (module : String) : Statement :=
  match statement.item with
  | .decl (.importing decl) =>
    { statement with
      item := .decl (.importing
        { decl with path := modifyFirst (fun token => { token with text := module }) decl.path }) }
  | _ => statement

/-- The statement with comments carried over from a statement removed before it. -/
def withCarried (statement : Statement) : Option Trivia → Statement
  | none => statement
  | some removed => Node.setLeading statement (Trivia.merge removed (Node.leading statement))

/-- What is carried over from the statement once it is removed: its leading trivia, if they hold a
comment. -/
def carriedTrivia (statement : Statement) : Option Trivia :=
  let leading := Node.leading statement
  if leading.hasComment then some leading else none

end Statement

namespace SourceFile

/-- Some statement of the file imports the given module as a whole. -/
def importsModule (file : SourceFile) (module : String) : Bool :=
  file.statements.any fun statement => statement.isImportOf module

/-- Some token of the file is a name of the legacy framework. -/
def mentionsLegacy (file : SourceFile) : Bool :=
  (Node.tokens file).any fun token => token.startsWith legacyStart

end SourceFile

/-- The statements with their imports migrated, and what is carried over to the end of the file.
The flag says that the successor is imported already. -/
def migrateImports (imported : Bool) (carried : Option Trivia) :
    List Statement → List Statement × Option Trivia
  | [] => ([], carried)
  | statement :: later =>
    let statement := statement.withCarried carried
    if !statement.isImportOf legacyModule then
      let (later, carried) := migrateImports imported none later
      (statement :: later, carried)
    -- A second import of the successor would be one too many, so this one goes.
    else if imported then migrateImports true statement.carriedTrivia later
    else
      let (later, carried) := migrateImports true none later
      (statement.withModule targetModule :: later, carried)

/-- Imports are migrated. -/
def importPass : Pass where
  name := "imports"
  run file :=
    let imported := file.importsModule targetModule
    if file.importsModule legacyModule then
      let (statements, carried) := migrateImports imported none file.statements
      let endOfFile := match carried with
        | none => file.endOfFile
        | some removed =>
          file.endOfFile.withLeading (Trivia.merge removed file.endOfFile.leading)
      { file := { statements, endOfFile }
        changes := file.statements.countP fun statement => statement.isImportOf legacyModule }
    else
      { file
        changes := 0
        flow := if imported && !file.mentionsLegacy then .halt else .proceed }

end SuiteMigration
