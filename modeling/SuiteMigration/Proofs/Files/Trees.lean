import Mathlib.Tactic.Common
import SuiteMigration.FileTree

/-!
# Changes of files in a tree

What a place in a tree holds after the content of a file has changed. Such a change keeps the names
in the tree, and what it does can be seen at that file only: another place holds what it held before,
or a folder as before.

## Main definitions

* `FileTree.changeFile` - the tree with the content of one file changed

## Main results

* `FileTree.get?_map` - what a place of a tree with other contents holds
* `FileTree.shape_changeFile` - a change of a file keeps the names
* `FileTree.get?_changeFile_self`, `FileTree.get?_changeFile_of_ne` - what places hold after it
* `FileTree.changeFile_comm` - changes of different files can be made in either order
-/

namespace SuiteMigration.FileTree

variable {α β : Type} {name other : String} {entry node : FileTree α}
  {entries : List (String × FileTree α)} {tree : FileTree α} {place : List String}

/-! ### Entries of a folder -/

theorem lookup_cons_of_ne (ne : name ≠ other) :
    List.lookup other ((name, entry) :: entries) = entries.lookup other := by
  rw [List.lookup_cons, beq_false_of_ne ne.symm]

/-- The entry that has been set is found. -/
theorem lookup_setEntry_self : (setEntry name entry entries).lookup name = some entry := by
  induction entries with
  | nil => exact List.lookup_cons_self
  | cons head rest ih =>
    obtain ⟨first, old⟩ := head
    rw [setEntry]
    split
    · exact List.lookup_cons_self
    · rwa [lookup_cons_of_ne ‹_›]

/-- Entries by other names stay. -/
theorem lookup_setEntry_of_ne (ne : name ≠ other) :
    (setEntry name entry entries).lookup other = entries.lookup other := by
  induction entries with
  | nil => exact lookup_cons_of_ne ne
  | cons head rest ih =>
    obtain ⟨first, old⟩ := head
    rw [setEntry]
    split
    · next same =>
      rw [same, lookup_cons_of_ne ne, lookup_cons_of_ne ne]
    · rw [List.lookup_cons, List.lookup_cons, ih]

/-- The last entry that is set by a name counts. -/
theorem setEntry_setEntry (new : FileTree α) :
    setEntry name new (setEntry name entry entries) = setEntry name new entries := by
  induction entries with
  | nil => simp [setEntry]
  | cons head rest ih =>
    obtain ⟨first, old⟩ := head
    by_cases same : first = name <;> simp [setEntry, same, ih]

/-- Entries that are there already can be set in either order. -/
theorem setEntry_comm {new : FileTree α} (ne : name ≠ other)
    (isThere : (entries.lookup name).isSome) (otherIsThere : (entries.lookup other).isSome) :
    setEntry other new (setEntry name entry entries) =
      setEntry name entry (setEntry other new entries) := by
  induction entries with
  | nil => cases isThere
  | cons head rest ih =>
    obtain ⟨first, old⟩ := head
    by_cases isName : first = name
    · subst isName
      simp [setEntry, ne]
    by_cases isOther : first = other
    · subst isOther
      simp [setEntry, isName]
    · rw [lookup_cons_of_ne isName] at isThere
      rw [lookup_cons_of_ne isOther] at otherIsThere
      simp [setEntry, isName, isOther, ih isThere otherIsThere]

/-- Setting the entry that is there changes nothing. -/
theorem setEntry_of_lookup (found : entries.lookup name = some entry) :
    setEntry name entry entries = entries := by
  induction entries with
  | nil => cases found
  | cons head rest ih =>
    obtain ⟨first, old⟩ := head
    by_cases same : first = name
    · subst same
      rw [List.lookup_cons_self] at found
      simp [setEntry, Option.some.inj found]
    · rw [lookup_cons_of_ne same] at found
      simp [setEntry, same, ih found]

theorem mapEntries_setEntry (f : α → β) :
    mapEntries f (setEntry name entry entries) =
      setEntry name (entry.map f) (mapEntries f entries) := by
  induction entries with
  | nil => simp [setEntry, mapEntries]
  | cons head rest ih =>
    obtain ⟨first, old⟩ := head
    by_cases same : first = name <;> simp [setEntry, mapEntries, same, ih]

/-- Contents are changed where they stand. -/
theorem lookup_mapEntries (f : α → β) :
    (mapEntries f entries).lookup name = (entries.lookup name).map (map f) := by
  induction entries with
  | nil => rfl
  | cons head rest ih =>
    obtain ⟨first, old⟩ := head
    by_cases same : first = name
    · subst same
      simp [mapEntries]
    · rw [mapEntries, lookup_cons_of_ne same, lookup_cons_of_ne same, ih]

/-! ### Places -/

theorem get?_folder_cons {names : List String} (found : entries.lookup name = some entry) :
    (folder entries).get? (name :: names) = entry.get? names := by
  rw [get?, found]
  rfl

/-- What is at a place below a folder is below one of its entries. -/
theorem exists_of_get?_cons {names : List String} (found : tree.get? (name :: names) = some node) :
    ∃ entries entry, tree = .folder entries ∧ entries.lookup name = some entry ∧
      entry.get? names = some node := by
  cases tree with
  | file => cases found
  | device => cases found
  | folder entries =>
    obtain ⟨entry, isEntry, found⟩ := Option.bind_eq_some_iff.1 found
    exact ⟨entries, entry, rfl, isEntry, found⟩

/-- A changed tree has the same places. -/
theorem get?_map (f : α → β) (tree : FileTree α) (place : List String) :
    (tree.map f).get? place = (tree.get? place).map (map f) := by
  induction place generalizing tree with
  | nil => rfl
  | cons name place ih =>
    cases tree with
    | file => rfl
    | device => rfl
    | folder entries =>
      rw [map, get?, get?, lookup_mapEntries]
      cases entries.lookup name with
      | none => rfl
      | some entry => exact ih entry

/-- Trees with the same names have folders at the same places, with the same names in them. -/
theorem exists_folder_of_shape_eq {otherTree : FileTree α} (same : tree.shape = otherTree.shape)
    (found : tree.get? place = some (.folder entries)) :
    ∃ others, otherTree.get? place = some (.folder others) ∧
      ∀ name, (others.lookup name).isSome = (entries.lookup name).isSome := by
  have answers := congrArg (get? place) same
  rw [shape, shape, get?_map, get?_map, found] at answers
  obtain ⟨node, there, shapes⟩ := Option.map_eq_some_iff.1 answers.symm
  cases node with
  | file => cases shapes
  | device => cases shapes
  | folder others =>
    refine ⟨others, there, fun name => ?_⟩
    have lookups := congrArg (List.lookup name) (FileTree.folder.inj shapes)
    rw [lookup_mapEntries, lookup_mapEntries] at lookups
    simpa using congrArg Option.isSome lookups

theorem put_folder_cons {names : List String} {new : FileTree α}
    (found : entries.lookup name = some entry) :
    (folder entries).put (name :: names) new =
      .folder (setEntry name (entry.put names new) entries) := by
  rw [put, found]
  rfl

/-- Putting what is there changes nothing. -/
theorem put_of_get? (found : tree.get? place = some node) : tree.put place node = tree := by
  induction place generalizing tree with
  | nil =>
    rw [put]
    exact (Option.some.inj found).symm
  | cons name place ih =>
    obtain ⟨entries, entry, rfl, isEntry, found⟩ := exists_of_get?_cons found
    rw [put_folder_cons isEntry, ih found, setEntry_of_lookup isEntry]

theorem map_put (f : α → β) (found : tree.get? place = some node) (new : FileTree α) :
    (tree.put place new).map f = (tree.map f).put place (new.map f) := by
  induction place generalizing tree with
  | nil => rw [put, put]
  | cons name place ih =>
    obtain ⟨entries, entry, rfl, isEntry, found⟩ := exists_of_get?_cons found
    have mapped : (mapEntries f entries).lookup name = some (entry.map f) := by
      rw [lookup_mapEntries, isEntry]
      rfl
    rw [put_folder_cons isEntry, map, map, put_folder_cons mapped, mapEntries_setEntry, ih found]

/-! ### The change of a file -/

/-- The tree with the content of the file at a place changed. A place without a file stays as it
is. -/
def changeFile (change : α → α) (place : List String) (tree : FileTree α) : FileTree α :=
  match tree.get? place with
  | some (.file content) => tree.put place (.file (change content))
  | _ => tree

variable {change : α → α} {content : α}

/-- Changing a file is putting its changed content. -/
theorem changeFile_of_file (found : tree.get? place = some (.file content)) :
    tree.changeFile change place = tree.put place (.file (change content)) := by
  rw [changeFile, found]

/-- Where no file stands nothing is changed. -/
theorem changeFile_of_no_file (none : ∀ content, tree.get? place ≠ some (.file content)) :
    tree.changeFile change place = tree := by
  rw [changeFile]
  split
  · exact absurd ‹_› (none _)
  · rfl

/-- A change of a file keeps the names. -/
theorem shape_changeFile (change : α → α) (place : List String) (tree : FileTree α) :
    (tree.changeFile change place).shape = tree.shape := by
  by_cases isFile : ∃ content, tree.get? place = some (.file content)
  · obtain ⟨content, found⟩ := isFile
    have shape_found : tree.shape.get? place = some (.file ()) := by
      rw [shape, get?_map, found]
      rfl
    rw [changeFile_of_file found, shape, map_put _ found]
    exact put_of_get? shape_found
  · rw [changeFile_of_no_file fun content found => isFile ⟨content, found⟩]

/-- Two answers to what is at a place that are the same, or both a folder. -/
def SameOrFolder (first second : Option (FileTree α)) : Prop :=
  first = second ∨ ∃ entries others, first = some (.folder entries) ∧ second = some (.folder others)

/-- Putting a file in the place of another leaves every other place, but for what is inside folders.
-/
theorem get?_put_file_of_ne {otherPlace : List String}
    (found : tree.get? place = some (.file content))
    (ne : place ≠ otherPlace) (new : α) :
    SameOrFolder ((tree.put place (.file new)).get? otherPlace) (tree.get? otherPlace) := by
  induction place generalizing tree otherPlace with
  | nil =>
    obtain rfl := Option.some.inj found
    cases otherPlace with
    | nil => exact absurd rfl ne
    | cons => exact .inl rfl
  | cons name place ih =>
    obtain ⟨entries, entry, rfl, isEntry, found⟩ := exists_of_get?_cons found
    rw [put_folder_cons isEntry]
    cases otherPlace with
    | nil => exact .inr ⟨_, _, rfl, rfl⟩
    | cons other otherPlace =>
      by_cases same : name = other
      · subst same
        rw [get?_folder_cons lookup_setEntry_self, get?_folder_cons isEntry]
        exact ih found fun same => ne (congrArg _ same)
      · left
        rw [get?, get?, lookup_setEntry_of_ne same]

/-- Changing a file leaves every other place, but for what is inside folders. -/
theorem get?_changeFile_of_ne (change : α → α) (tree : FileTree α) {otherPlace : List String}
    (ne : place ≠ otherPlace) :
    SameOrFolder ((tree.changeFile change place).get? otherPlace) (tree.get? otherPlace) := by
  by_cases isFile : ∃ content, tree.get? place = some (.file content)
  · obtain ⟨content, found⟩ := isFile
    rw [changeFile_of_file found]
    exact get?_put_file_of_ne found ne _
  · rw [changeFile_of_no_file fun content found => isFile ⟨content, found⟩]
    exact .inl rfl

/-- Files at two places are put in any order. -/
theorem put_put_comm {otherPlace : List String} {otherContent : α}
    (found : tree.get? place = some (.file content))
    (otherFound : tree.get? otherPlace = some (.file otherContent))
    (ne : place ≠ otherPlace) (new otherNew : FileTree α) :
    (tree.put place new).put otherPlace otherNew =
      (tree.put otherPlace otherNew).put place new := by
  induction place generalizing tree otherPlace with
  | nil =>
    -- The tree is the file itself, and there is no other.
    obtain rfl := Option.some.inj found
    cases otherPlace with
    | nil => exact absurd rfl ne
    | cons => cases otherFound
  | cons name place ih =>
    obtain ⟨entries, entry, rfl, isEntry, found⟩ := exists_of_get?_cons found
    cases otherPlace with
    | nil => cases otherFound
    | cons other otherPlace =>
      obtain ⟨_, otherEntry, ⟨⟩, isOtherEntry, otherFound⟩ := exists_of_get?_cons otherFound
      rw [put_folder_cons isEntry, put_folder_cons isOtherEntry]
      by_cases same : name = other
      · subst same
        obtain rfl := Option.some.inj (isEntry.symm.trans isOtherEntry)
        rw [put_folder_cons lookup_setEntry_self, put_folder_cons lookup_setEntry_self,
          setEntry_setEntry, setEntry_setEntry,
          ih found otherFound fun same => ne (congrArg _ same)]
      · rw [put_folder_cons ((lookup_setEntry_of_ne same).trans isOtherEntry),
          put_folder_cons ((lookup_setEntry_of_ne (Ne.symm same)).trans isEntry),
          setEntry_comm same (by simp [isEntry]) (by simp [isOtherEntry])]

theorem SameOrFolder.isFile {first second : Option (FileTree α)}
    (same : SameOrFolder first second) :
    first = some (.file content) ↔ second = some (.file content) := by
  obtain rfl | ⟨entries, others, rfl, rfl⟩ := same
  · rfl
  · simp

/-- Changes of different files can be made in either order. -/
theorem changeFile_comm {otherPlace : List String} (ne : place ≠ otherPlace) (tree : FileTree α) :
    (tree.changeFile change place).changeFile change otherPlace =
      (tree.changeFile change otherPlace).changeFile change place := by
  by_cases isFile : ∃ content, tree.get? place = some (.file content)
  · obtain ⟨content, found⟩ := isFile
    by_cases otherIsFile : ∃ content, tree.get? otherPlace = some (.file content)
    · obtain ⟨otherContent, otherFound⟩ := otherIsFile
      have stillFound := (get?_changeFile_of_ne change tree ne.symm).isFile.2 found
      have otherStillFound := (get?_changeFile_of_ne change tree ne).isFile.2 otherFound
      rw [changeFile_of_file otherStillFound, changeFile_of_file stillFound,
        changeFile_of_file found, changeFile_of_file otherFound]
      exact put_put_comm found otherFound ne _ _
    · have none content found :=
        otherIsFile ⟨content, (get?_changeFile_of_ne change tree ne).isFile.1 found⟩
      rw [changeFile_of_no_file none, changeFile_of_no_file fun content found =>
        otherIsFile ⟨content, found⟩]
  · have none content found :=
      isFile ⟨content, (get?_changeFile_of_ne change tree ne.symm).isFile.1 found⟩
    rw [changeFile_of_no_file none, changeFile_of_no_file fun content found =>
      isFile ⟨content, found⟩]

end SuiteMigration.FileTree
