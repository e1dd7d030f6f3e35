import SuiteMigration.FileAccess
import SuiteMigration.Pool

/-!
# Workspaces

A workspace is a machine as far as a run can see it: a tree of files, the folder in which the run
takes place, and a number of processors. Runs in a workspace are functions on workspaces, so what
they do to its files can be stated.

## Main definitions

* `Workspace` - files, working folder and processors
* `Workspace.locate?` - the place that a path leads to
* `Workspace.read?`, `Workspace.replace?` - the content of a file, and the workspace with another one
-/

namespace SuiteMigration

/-- A machine as far as a run can see it. -/
structure Workspace where
  /-- All files. -/
  tree : FileTree ByteArray
  /-- The place of the folder in which runs take place. -/
  current : List String
  /-- The number of processors. -/
  processors : Nat

namespace Workspace

/-! ### Places -/

/-- Follows segments from a place. Each is followed from a folder: an empty segment and a dot stay
there, two dots go up, and a name goes to the entry with that name. -/
def follow (tree : FileTree ByteArray) : (place segments : List String) → Option (List String)
  | place, [] => some place
  | place, segment :: rest =>
    match tree.get? place with
    | some (.folder entries) =>
      if segment = "" ∨ segment = "." then follow tree place rest
      else if segment = ".." then follow tree place.dropLast rest
      else if (entries.lookup segment).isSome then follow tree (place ++ [segment]) rest
      else none
    | _ => none

/-- Where a path starts. -/
def origin (workspace : Workspace) (path : Path) : List String :=
  if path.isAbsolute then [] else workspace.current

/-- The place that a path leads to. The empty path leads nowhere. -/
def locate? (workspace : Workspace) (path : Path) : Option (List String) :=
  if path.text.isEmpty then none
  else follow workspace.tree (workspace.origin path) path.segments

/-- What a path leads to. -/
def get? (workspace : Workspace) (path : Path) : Option (FileTree ByteArray) :=
  (workspace.locate? path).bind workspace.tree.get?

/-! ### Reading and replacing -/

/-- The content of a file. A device reads as empty. -/
def read? (workspace : Workspace) (path : Path) : Option ByteArray :=
  match workspace.get? path with
  | some (.file content) => some content
  | some .device => some .empty
  | _ => none

/-- The workspace with another content of a file. -/
def replace? (workspace : Workspace) (path : Path) (content : ByteArray) : Option Workspace :=
  match workspace.locate? path with
  | some place =>
    match workspace.tree.get? place with
    | some (.file _) => some { workspace with tree := workspace.tree.put place (.file content) }
    | _ => none
  | none => none

/-- What is found at a path. -/
def survey (workspace : Workspace) (path : Path) : Survey :=
  match workspace.get? path with
  | some tree => .found tree.shape
  | none => .missing

/-- Runs in a workspace. -/
instance : FileAccess (StateM Workspace) where
  survey path := return (← get).survey path
  read path := return (← get).read? path
  replace path content := do
    match (← get).replace? path content with
    | some workspace => set workspace; return true
    | none => return false
  forEach action items := do runPooled (← get).processors action items

end Workspace

end SuiteMigration
