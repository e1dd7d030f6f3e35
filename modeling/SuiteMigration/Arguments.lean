import SuiteMigration.Path
import SuiteMigration.Strategy

/-!
# Command-line arguments

The arguments of a run are one path, switches and options with a value. They are read from left to
right, and the first problem ends the reading. A value that stands apart from its option, and the
path, are checked when the next switch, option or path is accepted, or at the end. Two switches that
exclude each other and a missing path are noticed at the end.

The program declares its arguments and leaves the reading to the library `clap`. The module follows
the documented rules of that library: how words are split into switches, options and values, what two
hyphens mean, when a value is checked, and which problem is reported first.

## Main definitions

* `Arguments` - the arguments of a run
* `EarlyExit` - why arguments do not lead to a run
* `Switch`, `Parameter`, `Flag` - what can be given
* `Draft` - what has been read so far
* `Arguments.parse` - the arguments that a list of words spells
-/

namespace SuiteMigration

/-- The arguments of a run. -/
structure Arguments where
  /-- The file or folder to migrate. -/
  path : Path
  /-- Whether files are replaced. -/
  inPlace : Bool := false
  /-- Whether folders are searched to the bottom. -/
  recursive : Bool := false
  /-- What converted suites are. -/
  strategy : Option Strategy := none
  /-- Whether files are migrated in parallel. -/
  parallel : Bool := false
  /-- Whether differences are printed. -/
  diff : Bool := false
  /-- The settings file. -/
  config : Option Path := none
  /-- Whether the run tells what it does. -/
  verbose : Bool := false
  deriving DecidableEq, Repr

/-- Why arguments do not lead to a run. -/
inductive EarlyExit
  /-- A switch or option that does not exist, or a second path. -/
  | unknownArgument
  /-- A switch or option that was given before, or two that exclude each other. -/
  | conflict
  /-- A value that names no strategy. -/
  | badStrategy
  /-- An option without a value, or an empty path. -/
  | missingValue
  /-- A value for a switch. -/
  | unexpectedValue
  /-- No path. -/
  | missingPath
  /-- The request for help. -/
  | help
  /-- The request for the version. -/
  | version
  deriving DecidableEq, Repr

/-- What is on or off. -/
inductive Switch
  | inPlace
  | recursive
  | parallel
  | diff
  | verbose
  | help
  | version
  deriving DecidableEq, Repr

/-- What has a value. -/
inductive Parameter
  | path
  | strategy
  | config
  deriving DecidableEq, Repr

/-- What a name on the command line stands for. -/
inductive Flag
  | switch (switch : Switch)
  | option (parameter : Parameter)
  deriving DecidableEq, Repr

/-- The flag with a long name. -/
def Flag.ofLong? : String → Option Flag
  | "in-place" => some (.switch .inPlace)
  | "recursive" => some (.switch .recursive)
  | "strategy" => some (.option .strategy)
  | "parallel" => some (.switch .parallel)
  | "diff" => some (.switch .diff)
  | "config" => some (.option .config)
  | "verbose" => some (.switch .verbose)
  | "help" => some (.switch .help)
  | "version" => some (.switch .version)
  | _ => none

/-- The flag with a letter. -/
def Flag.ofLetter? : Char → Option Flag
  | 'i' => some (.switch .inPlace)
  | 'r' => some (.switch .recursive)
  | 's' => some (.option .strategy)
  | 'p' => some (.switch .parallel)
  | 'd' => some (.switch .diff)
  | 'c' => some (.option .config)
  | 'v' => some (.switch .verbose)
  | 'h' => some (.switch .help)
  | 'V' => some (.switch .version)
  | _ => none

/-- What has been read so far. -/
structure Draft where
  /-- The switches that are on. -/
  switches : List Switch := []
  /-- The path. -/
  path : Option Path := none
  /-- What converted suites are. -/
  strategy : Option Strategy := none
  /-- The settings file. -/
  config : Option Path := none
  /-- A parameter that waits to be checked, with its value unless that is still to come. -/
  pending : Option (Parameter × Option String) := none
  /-- Whether a path was met. -/
  hasPath : Bool := false
  deriving DecidableEq, Repr

namespace Draft

/-- Accepts a value for a parameter that has none yet. -/
def accept (draft : Draft) : Parameter → (value : String) → Except EarlyExit Draft
  | .path, value =>
    if draft.path.isSome then .error .conflict
    else if value.isEmpty then .error .missingValue
    else .ok { draft with path := some ⟨value⟩ }
  | .config, value =>
    if draft.config.isSome then .error .conflict
    else if value.isEmpty then .error .missingValue
    else .ok { draft with config := some ⟨value⟩ }
  | .strategy, value =>
    if draft.strategy.isSome then .error .conflict
    else match Strategy.ofName? value with
      | some strategy => .ok { draft with strategy := some strategy }
      | none => .error .badStrategy

/-- Accepts what waits to be checked. -/
def settle (draft : Draft) : Except EarlyExit Draft :=
  match draft.pending with
  | none => .ok draft
  | some (_, none) => .error .missingValue
  | some (parameter, some value) => { draft with pending := none }.accept parameter value

/-- Accepts a switch. -/
def turnOn (draft : Draft) (switch : Switch) : Except EarlyExit Draft := do
  let draft ← draft.settle
  match switch with
  | .help => .error .help
  | .version => .error .version
  | switch =>
    if switch ∈ draft.switches then .error .conflict
    else .ok { draft with switches := switch :: draft.switches }

/-- Accepts an option with the value that is part of the same word. -/
def give (draft : Draft) (parameter : Parameter) (value : String) : Except EarlyExit Draft := do
  (← draft.settle).accept parameter value

/-- Accepts an option whose value is the next word. -/
def await (draft : Draft) (parameter : Parameter) : Except EarlyExit Draft := do
  return { ← draft.settle with pending := some (parameter, none) }

/-- Accepts a path. A second one is refused before what waits is checked. -/
def takePath (draft : Draft) (word : String) : Except EarlyExit Draft := do
  if draft.hasPath then .error .unknownArgument
  else return { ← draft.settle with pending := some (.path, some word), hasPath := true }

/-- Reads a word that is not a flag: the value that an option waits for, or a path. -/
def takeWord (draft : Draft) (word : String) : Except EarlyExit Draft :=
  match draft.pending with
  | some (parameter, none) => .ok { draft with pending := some (parameter, some word) }
  | _ => draft.takePath word

/-- Reads a long flag, which may have a value after an equals sign. -/
def takeLong (draft : Draft) (word : List Char) : Except EarlyExit Draft :=
  let name := String.ofList (word.takeWhile (· ≠ '='))
  match Flag.ofLong? name, word.dropWhile (· ≠ '=') with
  | none, _ => .error .unknownArgument
  | some (.switch switch), [] => draft.turnOn switch
  | some (.switch _), _ :: _ => .error .unexpectedValue
  | some (.option parameter), [] => draft.await parameter
  | some (.option parameter), _ :: value => draft.give parameter (.ofList value)

/-- Reads a run of letters. The rest of the run after the letter of an option is its value, without
an equals sign in front. -/
def takeLetters (draft : Draft) : List Char → Except EarlyExit Draft
  | [] => .ok draft
  | letter :: rest =>
    match Flag.ofLetter? letter with
    | none => .error .unknownArgument
    | some (.switch switch) => do takeLetters (← draft.turnOn switch) rest
    | some (.option parameter) =>
      match rest with
      | [] => draft.await parameter
      | '=' :: value => draft.give parameter (.ofList value)
      | value => draft.give parameter (.ofList value)

/-- Reads the words that are left. After a double dash no word is a flag or a value. -/
def takeAll (draft : Draft) : List String → Except EarlyExit Draft
  | [] => .ok draft
  | word :: rest =>
    match word.toList with
    | ['-', '-'] => rest.foldlM takePath draft
    | '-' :: '-' :: long => do takeAll (← draft.takeLong long) rest
    | '-' :: letter :: letters => do takeAll (← draft.takeLetters (letter :: letters)) rest
    | _ => do takeAll (← draft.takeWord word) rest

/-- The arguments of a draft in which nothing is left to read. -/
def finish (draft : Draft) : Except EarlyExit Arguments := do
  let draft ← draft.settle
  let isOn (switch : Switch) : Bool := switch ∈ draft.switches
  if isOn .inPlace && isOn .diff then .error .conflict
  else match draft.path with
    | none => .error .missingPath
    | some path =>
      .ok
        { path
          inPlace := isOn .inPlace
          recursive := isOn .recursive
          strategy := draft.strategy
          parallel := isOn .parallel
          diff := isOn .diff
          config := draft.config
          verbose := isOn .verbose }

end Draft

/-- The arguments that a list of words spells. -/
def Arguments.parse (words : List String) : Except EarlyExit Arguments := do
  (← Draft.takeAll {} words).finish

end SuiteMigration
