import SuiteMigration.Failure
import SuiteMigration.FileAccess

/-!
# Discovery

Which files a run migrates. A file is taken as it is. In a folder the Swift files are taken, either
those in the folder itself or those at any depth. Names that start with a dot are passed over, with
all that is below them. The files come in the order of their names, folder by folder.

The program leaves the descent into a folder to the library `walkdir`, and `swiftFiles` stands for
it. What is followed of that library: it meets every entry below the folder once, down to the depth
that is asked for, says of each whether it is a file, and does not descend into an entry that is
filtered out. The order in which it meets them plays no part, since the places are sorted.

## Main definitions

* `isHidden` - the names that are passed over
* `swiftFiles` - the places of the files to migrate in a folder
* `placeInOrder`, `sortPlaces` - the order of places
* `discoverIn` - the files to migrate, from what is found at the path
* `discover` - the files to migrate at a path
-/

namespace SuiteMigration

/-- Whether an entry is passed over. -/
def isHidden (name : String) : Bool :=
  name.toList.head? == some '.'

mutual

/-- The places of the Swift files that an entry contributes, from the name of the entry on. -/
def swiftFilesAt (recursive : Bool) (name : String) : FileTree α → List (List String)
  | .file _ => if isSwiftName name then [[name]] else []
  | .device => []
  | .folder entries => if recursive then (swiftFiles true entries).map (name :: ·) else []

/-- The places of the Swift files among the entries of a folder and, if the search is recursive,
below them. -/
def swiftFiles (recursive : Bool) : List (String × FileTree α) → List (List String)
  | [] => []
  | (name, entry) :: rest =>
    (if isHidden name then [] else swiftFilesAt recursive name entry) ++ swiftFiles recursive rest

end

/-- Whether a place comes no later than another: by the first names, then by the second, and so on.
A place comes before all that is below it. -/
def placeInOrder : List String → List String → Bool
  | [], _ => true
  | _ :: _, [] => false
  | first :: restOfFirst, second :: restOfSecond =>
    if first = second then placeInOrder restOfFirst restOfSecond else decide (first ≤ second)

/-- Places in the order of their names. -/
def sortPlaces (places : List (List String)) : List (List String) :=
  places.mergeSort placeInOrder

/-- The path of a place below a root. -/
def Path.below (root : Path) (names : List String) : Path :=
  names.foldl Path.join root

/-- The files to migrate, from what is found at the root. -/
def discoverIn (recursive : Bool) (root : Path) : Survey → Except Failure (List Path)
  | .missing => .error (.pathNotFound root)
  | .unreadable => .error (.cannotEnumerate root)
  | .found (.file _) => .ok [root]
  | .found .device => .error (.emptyDirectory root)
  | .found (.folder entries) =>
    match sortPlaces (swiftFiles recursive entries) with
    | [] => .error (.emptyDirectory root)
    | places => .ok (places.map root.below)

/-- The files to migrate at a path. -/
def discover [Monad m] [FileAccess m] (recursive : Bool) (root : Path) :
    m (Except Failure (List Path)) := do
  return discoverIn recursive root (← FileAccess.survey root)

end SuiteMigration
