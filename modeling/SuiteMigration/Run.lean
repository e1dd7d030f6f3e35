import SuiteMigration.Arguments
import SuiteMigration.Discovery
import SuiteMigration.Report
import SuiteMigration.Settings

/-!
# Runs

A run reads its arguments and its settings, finds the files, migrates them and reports on them in
their order. It fails if the settings cannot be loaded, no files are found, or some file fails; a
file that fails does not keep the others from being migrated.

## Main definitions

* `Options` - the arguments merged over the settings
* `Transcript` - what a run says, and its exit code
* `loadSettings` - the settings of a file
* `execute` - a run with given arguments
* `runWords` - a run with given words on the command line
-/

namespace SuiteMigration

/-- The arguments merged over the settings. -/
structure Options where
  /-- What converted suites are. -/
  strategy : Strategy
  /-- Whether folders are searched to the bottom. -/
  recursive : Bool
  /-- Whether files are migrated in parallel. -/
  parallel : Bool
  /-- Where migrated text goes. -/
  mode : OutputMode
  deriving DecidableEq, Repr

/-- The arguments merged over the settings: an argument wins, and a switch is on if either says
so. Suites stay classes unless something else is said. -/
def Options.resolve (arguments : Arguments) (settings : Settings) : Options where
  strategy := (arguments.strategy <|> settings.strategy).getD .reference
  recursive := arguments.recursive || settings.recursive.getD false
  parallel := arguments.parallel || settings.parallel.getD false
  mode := if arguments.inPlace then .inPlace else if arguments.diff then .diff else .source

/-- What a run says apart from its output. -/
inductive Notice
  /-- The line about a file migrated in place. -/
  | status (line : List Span)
  /-- Something went wrong. -/
  | failure (failure : Failure)
  /-- The arguments cannot be understood. -/
  | usage (reason : EarlyExit)

/-- What a run says, and its exit code. -/
structure Transcript where
  /-- Zero for success, one for a failure, two for arguments that cannot be understood. -/
  exitCode : Nat
  /-- The output. -/
  output : List Span := []
  /-- What else is said, in order. -/
  notices : List Notice := []

/-- The settings of a file. -/
def loadSettings [Monad m] [FileAccess m] (path : Path) : m (Except Failure Settings) := do
  match ← readText path with
  | none => return .error (.cannotRead path)
  | some text =>
    match Settings.parse text with
    | some settings => return .ok settings
    | none => return .error (.invalidSettings path)

/-- The transcript of a run that fails before it migrates anything. -/
def Transcript.ofFailure (failure : Failure) : Transcript where
  exitCode := 1
  notices := [.failure failure]

/-- The output about one file. -/
def outputFor (mode : OutputMode) (withHeader : Bool) : FileOutcome → List Span
  | .error _ => []
  | .ok file =>
    match mode with
    | .source => sourceReport withHeader file
    | .diff => diffReport file
    | .inPlace => []

/-- What else is said about one file. -/
def noticesFor (mode : OutputMode) : FileOutcome → List Notice
  | .error failure => [.failure failure]
  | .ok file => if mode = .inPlace then [.status (statusReport file.path file.written)] else []

/-- The transcript of a run with the outcomes for its files. Several files get headers. -/
def Transcript.ofOutcomes (mode : OutputMode) (outcomes : List FileOutcome) : Transcript :=
  let failure := batchFailure? outcomes
  { exitCode := if failure.isSome then 1 else 0
    output := outcomes.flatMap (outputFor mode (decide (1 < outcomes.length)))
    notices := outcomes.flatMap (noticesFor mode) ++ failure.toList.map .failure }

/-- A run with given arguments. -/
def execute [Monad m] [FileAccess m] (arguments : Arguments) : m Transcript := do
  let settings ← match arguments.config with
    | some path => loadSettings path
    | none => pure (.ok {})
  match settings with
  | .error failure => return .ofFailure failure
  | .ok settings =>
    let options := Options.resolve arguments settings
    match ← discover options.recursive arguments.path with
    | .error failure => return .ofFailure failure
    | .ok paths =>
      return .ofOutcomes options.mode
        (← migrateAll options.parallel options.mode options.strategy paths)

/-- The answer to the request for the version. -/
def versionText : String :=
  "testing-migrator 0.1.0\n"

/-- The answer to the request for help. -/
def helpText : String :=
  Text.joinLines
    ["Rewrites XCTest suites and assertions into Swift Testing.",
      "",
      "Usage: testing-migrator [OPTIONS] <PATH>",
      "",
      "Arguments:",
      "  <PATH>  A Swift file, or a directory of Swift files",
      "",
      "Options:",
      "  -i, --in-place             Write the result back to each file instead of printing it",
      "  -r, --recursive            Search subdirectories too",
      "  -s, --strategy <STRATEGY>  How converted suites are represented: `class` or `struct`",
      "  -p, --parallel             Migrate files on a pool of worker threads",
      "  -d, --diff                 Print a line diff instead of the rewritten source",
      "  -c, --config <FILE>        YAML settings file supplying defaults for the options above",
      "  -v, --verbose              Log each pass and file to stderr",
      "  -h, --help                 Print help",
      "  -V, --version              Print version",
      ""]

/-- The transcript of arguments that do not lead to a run. -/
def Transcript.ofEarlyExit : EarlyExit → Transcript
  | .help => { exitCode := 0, output := [{ text := helpText }] }
  | .version => { exitCode := 0, output := [{ text := versionText }] }
  | reason => { exitCode := 2, notices := [.usage reason] }

/-- A run with given words on the command line. -/
def runWords [Monad m] [FileAccess m] (words : List String) : m Transcript :=
  match Arguments.parse words with
  | .ok arguments => execute arguments
  | .error reason => return .ofEarlyExit reason

end SuiteMigration
