import SuiteMigration.Expectation.Throwing
import SuiteMigration.Import
import SuiteMigration.Reading.Source
import SuiteMigration.Suite.Conversion

/-!
# Migration

A file is read once, goes through the passes in their order, and is written. Imports come first.
Assertions about errors come before other assertions, because the statements of a handler may hold
some. Suites come last, because the search for writes reads bodies that are migrated already.

## Main definitions

* `passes` - the passes for a strategy
* `runPasses`, `migrateFile` - the tree after the passes
* `migrate` - a source text after the migration
-/

namespace SuiteMigration

/-- The passes for a strategy, in order. -/
def passes (strategy : Strategy) : List Pass :=
  [importPass, throwingPass, assertionPass, suitePass strategy]

/-- The tree after the passes, up to the first one that halts. -/
def runPasses : List Pass → SourceFile → SourceFile
  | [], file => file
  | pass :: later, file =>
    let outcome := pass.run file
    if outcome.flow = .halt then outcome.file else runPasses later outcome.file

/-- The tree of a file after the migration. -/
def migrateFile (strategy : Strategy) (file : SourceFile) : SourceFile :=
  runPasses (passes strategy) file

/-- A source text after the migration. -/
def migrate (strategy : Strategy) (source : String) : String :=
  Node.render (migrateFile strategy (.parse source))

end SuiteMigration
