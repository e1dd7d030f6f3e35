import SuiteMigration.Failure
import SuiteMigration.FileAccess
import SuiteMigration.Migration

/-!
# Batches of files

A batch migrates a list of files. Every file is attempted: a file that fails is reported under its
path and does not stop the others.

## Main definitions

* `OutputMode` - where migrated text goes
* `MigratedFile` - a file before and after
* `migrateAt` - the migration of one file
* `migrateAll` - the migration of a list of files
* `batchFailure?` - the failure of a batch
-/

namespace SuiteMigration

/-- Where migrated text goes. -/
inductive OutputMode
  /-- It is printed. -/
  | source
  /-- It replaces the file. -/
  | inPlace
  /-- The differences to the file are printed. -/
  | diff
  deriving DecidableEq, Repr

/-- A file before and after its migration. -/
structure MigratedFile where
  /-- Where the file is. -/
  path : Path
  /-- The text that was read. -/
  before : String
  /-- The migrated text. -/
  after : String
  /-- Whether the file was replaced. -/
  written : Bool := false
  deriving DecidableEq, Repr

/-- Whether the migration changed the text. -/
def MigratedFile.changed (file : MigratedFile) : Bool :=
  file.before != file.after

/-- The outcome for one file. -/
abbrev FileOutcome := Except Failure MigratedFile

/-- Migrates one file. It is replaced only in place, and only if its text changed. -/
def migrateAt [Monad m] [FileAccess m] (mode : OutputMode) (strategy : Strategy) (path : Path) :
    m FileOutcome := do
  match ← readText path with
  | none => return .error (.cannotRead path)
  | some before =>
    let file : MigratedFile := { path, before, after := migrate strategy before }
    if mode = .inPlace && file.changed then
      if ← FileAccess.replace path file.after.toUTF8 then return .ok { file with written := true }
      else return .error (.cannotWrite path)
    else return .ok file

/-- Migrates the files of a list, one after another or in parallel. The outcomes are in the order of
the files. -/
def migrateAll [Monad m] [FileAccess m] (parallel : Bool) (mode : OutputMode) (strategy : Strategy)
    (paths : List Path) : m (List FileOutcome) :=
  if parallel then FileAccess.forEach (migrateAt mode strategy) paths
  else paths.mapM (migrateAt mode strategy)

/-- Whether a file failed. -/
def FileOutcome.isFailure : FileOutcome → Bool
  | .error _ => true
  | .ok _ => false

/-- The failure of a batch in which some file failed. -/
def batchFailure? (outcomes : List FileOutcome) : Option Failure :=
  let failed := outcomes.countP FileOutcome.isFailure
  if failed = 0 then none else some (.batchFailed failed outcomes.length)

end SuiteMigration
