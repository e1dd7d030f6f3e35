/-!
# File trees

A file tree is a file with a content, a folder of named entries, or a device, which is neither. A
place in the tree is given by the names on the way to it.

## Main definitions

* `FileTree` - a tree of files and folders
* `FileTree.get?`, `FileTree.put` - what is at a place, and a change there
* `FileTree.map` - the tree with other contents
-/

namespace SuiteMigration

/-- A tree of files and folders. -/
inductive FileTree (α : Type) where
  /-- A regular file. -/
  | file (content : α)
  /-- Something that is neither a file nor a folder and holds nothing. -/
  | device
  /-- A folder with its entries, by name. -/
  | folder (entries : List (String × FileTree α))

/-- A tree of names, without contents. -/
abbrev FileTree.Shape := FileTree Unit

namespace FileTree

variable {α β : Type}

/-- The entries of a folder with one of them set; a new entry comes last. -/
def setEntry (name : String) (entry : FileTree α) :
    List (String × FileTree α) → List (String × FileTree α)
  | [] => [(name, entry)]
  | (other, old) :: rest =>
    if other = name then (name, entry) :: rest else (other, old) :: setEntry name entry rest

/-- What is at a place. -/
def get? : (names : List String) → FileTree α → Option (FileTree α)
  | [], tree => some tree
  | name :: names, .folder entries => (entries.lookup name).bind (get? names)
  | _ :: _, _ => none

/-- The tree with something put at a place. Missing folders on the way are made; a file or a device
on the way leaves the tree as it is. -/
def put : (tree : FileTree α) → (names : List String) → (new : FileTree α) → FileTree α
  | _, [], new => new
  | .folder entries, name :: names, new =>
    .folder (setEntry name (put ((entries.lookup name).getD (.folder [])) names new) entries)
  | tree, _ :: _, _ => tree

mutual

/-- The tree with each content changed. -/
def map (f : α → β) : FileTree α → FileTree β
  | .file content => .file (f content)
  | .device => .device
  | .folder entries => .folder (mapEntries f entries)

/-- The entries with each content changed. -/
def mapEntries (f : α → β) : List (String × FileTree α) → List (String × FileTree β)
  | [] => []
  | (name, entry) :: rest => (name, map f entry) :: mapEntries f rest

end

/-- The names of a tree, without contents. -/
def shape (tree : FileTree α) : Shape :=
  tree.map fun _ => ()

end FileTree

end SuiteMigration
