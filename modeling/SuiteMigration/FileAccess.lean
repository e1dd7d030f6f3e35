import SuiteMigration.FileTree
import SuiteMigration.Path

/-!
# Access to files

What a run asks of the place where its files are. The run itself is written once, for any such
place: the files of a machine, or a workspace that is a value.

## Main definitions

* `Survey` - what is found at a path
* `FileAccess` - the operations
* `readText` - the text of a file
-/

namespace SuiteMigration

/-- What is found at a path. -/
inductive Survey
  /-- Nothing is there. -/
  | missing
  /-- Something is there that cannot be listed to its end. -/
  | unreadable
  /-- The names at the path and below. -/
  | found (shape : FileTree.Shape)

/-- The operations on files that a run needs. -/
class FileAccess (m : Type → Type) where
  /-- What is at a path. -/
  survey : Path → m Survey
  /-- The content of a file, if it can be read. -/
  read : Path → m (Option ByteArray)
  /-- Replaces the content of a file as a whole. The answer is whether that worked; if it did not,
  the file is as before. -/
  replace : Path → ByteArray → m Bool
  /-- Runs an action on every item, by several workers if there are some, and gives the results in
  the order of the items. -/
  forEach {α β : Type} : (α → m β) → List α → m (List β)

/-- The text of a file. A file that is not valid UTF-8 cannot be read as text. -/
def readText [Monad m] [FileAccess m] (path : Path) : m (Option String) := do
  return (← FileAccess.read path).bind String.fromUTF8?

end SuiteMigration
