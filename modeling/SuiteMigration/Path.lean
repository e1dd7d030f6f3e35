import SuiteMigration.Text.Lines

/-!
# Paths

A path is kept as it was given, because messages show it that way. Its segments are the parts between
slashes. Empty segments and single dots do not count towards the file name.

## Main definitions

* `Path` - a path as given
* `Path.segments` - the parts between slashes
* `Path.join` - a path with one more name
* `Path.fileName?` - the last name
* `extension?` - what follows the last dot of a name
* `Path.isSwiftFile` - whether a path names a Swift source file
-/

namespace SuiteMigration

/-- A path as given. -/
structure Path where
  /-- The text of the path. -/
  text : String
  deriving DecidableEq, Repr

/-- What follows the last dot of a file name. A dot at the start of the name does not count. -/
def extension? (name : String) : Option String :=
  let after := (name.toList.reverse.takeWhile (· ≠ '.')).reverse
  match name.toList.reverse.dropWhile (· ≠ '.') with
  | _ :: _ :: _ => some (.ofList after)
  | _ => none

/-- The extension of Swift source files. -/
def swiftExtension : String :=
  "swift"

/-- Whether a file name is that of a Swift source file. -/
def isSwiftName (name : String) : Bool :=
  extension? name == some swiftExtension

namespace Path

/-- The parts between slashes; a path without slashes is one segment. -/
def segments (path : Path) : List String :=
  (Text.cutAt '/' path.text.toList).map .ofList

/-- Whether the path starts at the root. -/
def isAbsolute (path : Path) : Bool :=
  path.text.toList.head? == some '/'

/-- The path with one more name, after a slash unless one is there already. -/
def join (path : Path) (name : String) : Path :=
  if path.text.isEmpty || path.text.toList.getLast? == some '/' then ⟨path.text ++ name⟩
  else ⟨path.text ++ "/" ++ name⟩

/-- The last segment that is neither empty nor a single dot, unless it is the double dot. -/
def fileName? (path : Path) : Option String :=
  match (path.segments.filter fun segment => segment ≠ "" ∧ segment ≠ ".").getLast? with
  | some ".." => none
  | last => last

/-- Whether the path names a Swift source file. -/
def isSwiftFile (path : Path) : Bool :=
  path.fileName?.any isSwiftName

example : isSwiftFile ⟨"a.swift/."⟩ ∧ ¬ isSwiftFile ⟨"b/.swift"⟩ ∧ ¬ isSwiftFile ⟨"x.swift/.."⟩ := by
  decide +kernel

end Path

end SuiteMigration
