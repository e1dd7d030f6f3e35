import SuiteMigration.Path

/-!
# Failures

What can go wrong in a run: files that cannot be found, listed, read or written, settings that cannot
be understood, and a batch in which some file failed. The migration of a text itself cannot fail.

## Main definitions

* `Failure` - the causes
* `Failure.message`, `Failure.code`, `Failure.help`, `Failure.path` - what is said about a failure
-/

namespace SuiteMigration

/-- A cause of failure. -/
inductive Failure
  /-- Nothing is at the path. -/
  | pathNotFound (path : Path)
  /-- The folder could not be listed to its end. -/
  | cannotEnumerate (path : Path)
  /-- The folder has no Swift files to migrate. -/
  | emptyDirectory (path : Path)
  /-- The file could not be read as text. -/
  | cannotRead (path : Path)
  /-- The file could not be replaced. -/
  | cannotWrite (path : Path)
  /-- The settings file is invalid. -/
  | invalidSettings (path : Path)
  /-- Some files of a batch failed. -/
  | batchFailed (failed total : Nat)
  deriving DecidableEq, Repr

namespace Failure

/-- What is said about the failure. -/
def message : Failure → String
  | .pathNotFound path => "path not found: " ++ path.text
  | .cannotEnumerate path => "cannot enumerate directory " ++ path.text
  | .emptyDirectory path => "no Swift files found in " ++ path.text
  | .cannotRead path => "cannot read " ++ path.text
  | .cannotWrite path => "cannot write " ++ path.text
  | .invalidSettings path => "invalid settings file " ++ path.text
  | .batchFailed failed total =>
    toString failed ++ " of " ++ toString total ++ " files could not be migrated"

/-- The code of the failure, for tools. -/
def code : Failure → String
  | .pathNotFound _ => "testing_migrator::io::not_found"
  | .cannotEnumerate _ => "testing_migrator::io::enumerate"
  | .emptyDirectory _ => "testing_migrator::io::empty_directory"
  | .cannotRead _ => "testing_migrator::io::read"
  | .cannotWrite _ => "testing_migrator::io::write"
  | .invalidSettings _ => "testing_migrator::config::invalid"
  | .batchFailed _ _ => "testing_migrator::batch::failed"

/-- What the user can do about the failure. -/
def help : Failure → Option String
  | .pathNotFound _ => some "check the path, or run from the directory that contains it"
  | .emptyDirectory _ => some "pass --recursive to search subdirectories"
  | .cannotWrite _ => some "the original file was left unchanged"
  | .invalidSettings _ =>
    some "expected YAML keys: strategy (class|struct), recursive, parallel"
  | _ => none

/-- The file or folder that the failure is about. -/
def path : Failure → Option Path
  | .pathNotFound path | .cannotEnumerate path | .emptyDirectory path | .cannotRead path
  | .cannotWrite path | .invalidSettings path => some path
  | .batchFailed _ _ => none

end Failure

end SuiteMigration
