import SuiteMigration.Batch
import SuiteMigration.Proofs.Files.Trees
import SuiteMigration.Proofs.Pool.Schedules
import SuiteMigration.Workspace

/-!
# Batches in a workspace

The migration of a file reads the file and, in place, changes its content. It keeps all names, so
paths lead where they led before, and of what other paths read it changes nothing unless they lead to
the same place. Migrations of different files therefore take no notice of each other, and workers that
share a batch give what one worker gives, however their steps are interleaved.

## Main definitions

* `Workspace.Alike` - workspaces that differ in contents only
* `Workspace.Apart` - paths that do not lead to the same place
* `Strategy.migrated` - the migrated content of a file
* `outcomeOf` - the outcome for a file with a given content
* `Workspace.migratedAt` - the workspace after the migration of a file

## Main results

* `Workspace.Alike.locate?_eq` - paths lead to the same places
* `migrateAt_eq` - what the migration of one file does
* `unordered_migrateAt` - migrations of different files take no notice of each other
* `mapM_migrateAt` - what the migration of a list of files does
* `parallel_agrees_with_sequential` - workers give what one worker gives
-/

namespace SuiteMigration

/-! ### Workspaces that differ in contents only -/

namespace Workspace

/-- The workspaces have the same names in their trees, and the rest in common. -/
structure Alike (first second : Workspace) : Prop where
  shape : first.tree.shape = second.tree.shape
  current : first.current = second.current
  processors : first.processors = second.processors

variable {first second third : Workspace}

theorem Alike.refl (workspace : Workspace) : Alike workspace workspace :=
  ⟨rfl, rfl, rfl⟩

theorem Alike.symm (alike : Alike first second) : Alike second first :=
  ⟨alike.shape.symm, alike.current.symm, alike.processors.symm⟩

theorem Alike.trans (alike : Alike first second) (next : Alike second third) : Alike first third :=
  ⟨alike.shape.trans next.shape, alike.current.trans next.current,
    alike.processors.trans next.processors⟩

/-- A path leads nowhere through a place that is no folder. -/
theorem follow_of_no_folder {tree : FileTree ByteArray} {place : List String}
    (none : ∀ entries, tree.get? place ≠ some (.folder entries)) (segment : String)
    (rest : List String) : follow tree place (segment :: rest) = .none := by
  rw [follow]
  split
  · exact absurd ‹_› (none _)
  · rfl

/-- Following segments takes notice of the names only. -/
theorem follow_congr {tree other : FileTree ByteArray} (same : tree.shape = other.shape)
    (place segments : List String) : follow tree place segments = follow other place segments := by
  induction segments generalizing place with
  | nil => rfl
  | cons segment segments ih =>
    by_cases isFolder : ∃ entries, tree.get? place = some (.folder entries)
    · obtain ⟨entries, here⟩ := isFolder
      obtain ⟨others, there, found⟩ := FileTree.exists_folder_of_shape_eq same here
      simp only [follow, here, there, found, ih]
    · have noFolder entries here := isFolder ⟨entries, here⟩
      have otherNoFolder others (there : other.get? place = some (.folder others)) : False := by
        obtain ⟨entries, here, -⟩ := FileTree.exists_folder_of_shape_eq same.symm there
        exact isFolder ⟨entries, here⟩
      rw [follow_of_no_folder noFolder, follow_of_no_folder otherNoFolder]

/-- Paths lead to the same places. -/
theorem Alike.locate?_eq (alike : Alike first second) (path : Path) :
    first.locate? path = second.locate? path := by
  simp only [locate?, origin, alike.current, follow_congr alike.shape]

/-- The paths do not lead to the same place. -/
def Apart (workspace : Workspace) (first second : Path) : Prop :=
  ∀ place, workspace.locate? first = some place → workspace.locate? second ≠ some place

end Workspace

/-! ### The migration of one file -/

/-- The content of a file after its migration. A file that is not text keeps its content. -/
def Strategy.migrated (strategy : Strategy) (content : ByteArray) : ByteArray :=
  match String.fromUTF8? content with
  | some text => (migrate strategy text).toUTF8
  | none => content

/-- The outcome for a file from what is read there. -/
def outcomeOf (mode : OutputMode) (strategy : Strategy) (path : Path) (content : Option ByteArray) :
    FileOutcome :=
  match content.bind String.fromUTF8? with
  | some before =>
    let after := migrate strategy before
    .ok { path, before, after, written := mode = .inPlace && before != after }
  | none => .error (.cannotRead path)

/-- The workspace after the migration of a file. -/
def Workspace.migratedAt (mode : OutputMode) (strategy : Strategy) (path : Path)
    (workspace : Workspace) : Workspace :=
  match mode, workspace.locate? path with
  | .inPlace, some place =>
    { workspace with tree := workspace.tree.changeFile strategy.migrated place }
  | _, _ => workspace

/-- An empty source stays empty. -/
theorem migrate_empty (strategy : Strategy) : migrate strategy "" = "" := by
  cases strategy <;> decide +kernel

/-- A text that has been read is written back as the bytes it was read from. -/
theorem toUTF8_of_fromUTF8? {content : ByteArray} {text : String}
    (isText : String.fromUTF8? content = some text) : text.toUTF8 = content := by
  simp only [String.fromUTF8?, Option.dite_none_right_eq_some, Option.some.injEq] at isText
  obtain ⟨_, rfl⟩ := isText
  rfl

theorem bind_apply_eq {σ α β : Type} {action : StateM σ α} {next : α → StateM σ β}
    {state newState : σ} {answer : α} (step : action state = (answer, newState)) :
    (action >>= next) state = next answer newState := by
  show next (action state).1 (action state).2 = _
  rw [step]

/-- The steps of a migration, with their answers put in. -/
theorem migrateAt_apply (mode : OutputMode) (strategy : Strategy) (path : Path)
    (workspace : Workspace) :
    (migrateAt mode strategy path : StateM Workspace FileOutcome) workspace =
      match (workspace.read? path).bind String.fromUTF8? with
      | none => (.error (.cannotRead path), workspace)
      | some before =>
        if mode = .inPlace && before != migrate strategy before then
          match workspace.replace? path (migrate strategy before).toUTF8 with
          | some replaced =>
            (.ok { path, before, after := migrate strategy before, written := true }, replaced)
          | none => (.error (.cannotWrite path), workspace)
        else (.ok { path, before, after := migrate strategy before }, workspace) := by
  have read : (readText path : StateM Workspace (Option String)) workspace =
      ((workspace.read? path).bind String.fromUTF8?, workspace) := rfl
  have replace content : (FileAccess.replace path content : StateM Workspace Bool) workspace =
      match workspace.replace? path content with
      | some replaced => (true, replaced)
      | none => (false, workspace) := by
    refine (bind_apply_eq rfl).trans ?_
    cases workspace.replace? path content <;> rfl
  rw [migrateAt, bind_apply_eq read]
  cases (workspace.read? path).bind String.fromUTF8? with
  | none => rfl
  | some before =>
    simp only [MigratedFile.changed]
    split
    · cases replaced : workspace.replace? path (migrate strategy before).toUTF8 with
      | none =>
        rw [bind_apply_eq ((replace _).trans (by rw [replaced]))]
        rfl
      | some after =>
        rw [bind_apply_eq ((replace _).trans (by rw [replaced]))]
        rfl
    · rfl

/-- What is read from a path is what stands at its place. -/
theorem Workspace.read?_of_locate? {workspace : Workspace} {path : Path} {place : List String}
    (located : workspace.locate? path = some place) :
    workspace.read? path =
      match workspace.tree.get? place with
      | some (.file content) => some content
      | some .device => some .empty
      | _ => none := by
  rw [read?, get?, located]
  rfl

/-- A printed migration leaves the workspace as it is. -/
theorem Workspace.migratedAt_of_ne_inPlace {mode : OutputMode} (printed : mode ≠ .inPlace)
    (strategy : Strategy) (path : Path) (workspace : Workspace) :
    workspace.migratedAt mode strategy path = workspace := by
  cases mode with
  | inPlace => exact absurd rfl printed
  | source => rfl
  | diff => rfl

/-- The migration of one file answers from what it reads, and changes that file only. -/
theorem migrateAt_eq (mode : OutputMode) (strategy : Strategy) (path : Path)
    (workspace : Workspace) :
    (migrateAt mode strategy path : StateM Workspace FileOutcome) workspace =
      (outcomeOf mode strategy path (workspace.read? path),
        workspace.migratedAt mode strategy path) := by
  rw [migrateAt_apply, outcomeOf]
  by_cases inPlace : mode = .inPlace
  · subst inPlace
    cases located : workspace.locate? path with
    | none => simp [Workspace.read?, Workspace.get?, Workspace.migratedAt, located]
    | some place =>
      simp only [Workspace.read?_of_locate? located, Workspace.migratedAt, Workspace.replace?,
        located]
      rcases found : workspace.tree.get? place with _ | content | _ | entries
      · simp [FileTree.changeFile, found]
      · simp only [FileTree.changeFile_of_file found, Option.bind_some]
        cases isText : String.fromUTF8? content with
        | none =>
          have fixed : strategy.migrated content = content := by rw [Strategy.migrated, isText]
          rw [fixed, FileTree.put_of_get? found]
        | some before =>
          have migrated : strategy.migrated content = (migrate strategy before).toUTF8 := by
            rw [Strategy.migrated, isText]
          by_cases same : migrate strategy before = before
          · -- The text is as before, and so is the content that it would be written as.
            rw [migrated, same, toUTF8_of_fromUTF8? isText, FileTree.put_of_get? found]
            simp [same]
          · have differs : (before != migrate strategy before) = true := bne_iff_ne.2 (Ne.symm same)
            simp [migrated, differs]
      · -- A device reads as empty, and there is nothing to migrate in an empty text.
        have isText : String.fromUTF8? .empty = some "" := rfl
        simp [FileTree.changeFile, found, isText, migrate_empty]
      · simp [FileTree.changeFile, found]
  · rw [Workspace.migratedAt_of_ne_inPlace inPlace]
    cases (workspace.read? path).bind String.fromUTF8? <;> simp [inPlace]

/-! ### Migrations of different files -/

namespace Workspace

variable {mode : OutputMode} {strategy : Strategy} {path other : Path} {workspace : Workspace}

/-- Migrating a file changes the contents of files and nothing else. -/
theorem alike_migratedAt (mode : OutputMode) (strategy : Strategy) (path : Path)
    (workspace : Workspace) : Alike (workspace.migratedAt mode strategy path) workspace := by
  unfold migratedAt
  split
  · exact ⟨FileTree.shape_changeFile _ _ _, rfl, rfl⟩
  · exact .refl workspace

/-- In place, a migration changes the file at the place the path leads to. -/
theorem migratedAt_of_locate? {place : List String}
    (located : workspace.locate? path = some place) :
    workspace.migratedAt .inPlace strategy path =
      { workspace with tree := workspace.tree.changeFile strategy.migrated place } := by
  simp only [migratedAt, located]

/-- A path that leads nowhere changes nothing. -/
theorem migratedAt_of_locate?_eq_none (lost : workspace.locate? path = none) :
    workspace.migratedAt mode strategy path = workspace := by
  simp only [migratedAt, lost]

theorem Apart.symm (apart : workspace.Apart path other) : workspace.Apart other path :=
  fun place located otherLocated => apart place otherLocated located

/-- Whether paths are apart does not depend on the contents of files. -/
theorem Apart.of_alike (apart : first.Apart path other) (alike : Alike first second) :
    second.Apart path other := by
  intro place located
  rw [← alike.locate?_eq] at located ⊢
  exact apart place located

/-- What a path reads is not changed by the migration of another file. -/
theorem read?_migratedAt (apart : mode = .inPlace → workspace.Apart path other) :
    (workspace.migratedAt mode strategy other).read? path = workspace.read? path := by
  by_cases inPlace : mode = .inPlace
  · subst inPlace
    cases located : workspace.locate? path with
    | none =>
      have stillLost := ((alike_migratedAt .inPlace strategy other workspace).locate?_eq path).trans
        located
      simp [read?, get?, located, stillLost]
    | some place =>
      have stillLocated :=
        ((alike_migratedAt .inPlace strategy other workspace).locate?_eq path).trans located
      rw [read?_of_locate? located, read?_of_locate? stillLocated]
      cases otherLocated : workspace.locate? other with
      | none => rw [migratedAt_of_locate?_eq_none otherLocated]
      | some otherPlace =>
        have ne : otherPlace ≠ place := fun same => apart rfl place located (same ▸ otherLocated)
        rw [migratedAt_of_locate? otherLocated]
        -- The place holds what it held, or is a folder, and a folder has no content to read.
        rcases FileTree.get?_changeFile_of_ne strategy.migrated workspace.tree ne with
          same | ⟨entries, others, isFolder, wasFolder⟩
        · rw [same]
        · rw [isFolder, wasFolder]
  · rw [migratedAt_of_ne_inPlace inPlace]

/-- Migrations of files that are apart commute. -/
theorem migratedAt_comm (apart : mode = .inPlace → workspace.Apart path other) :
    (workspace.migratedAt mode strategy path).migratedAt mode strategy other =
      (workspace.migratedAt mode strategy other).migratedAt mode strategy path := by
  by_cases inPlace : mode = .inPlace
  · subst inPlace
    have located_other := (alike_migratedAt .inPlace strategy path workspace).locate?_eq other
    have located_path := (alike_migratedAt .inPlace strategy other workspace).locate?_eq path
    cases located : workspace.locate? path with
    | none =>
      rw [migratedAt_of_locate?_eq_none (located_path.trans located),
        migratedAt_of_locate?_eq_none located]
    | some place =>
      cases otherLocated : workspace.locate? other with
      | none =>
        rw [migratedAt_of_locate?_eq_none (located_other.trans otherLocated),
          migratedAt_of_locate?_eq_none otherLocated]
      | some otherPlace =>
        have ne : place ≠ otherPlace := fun same => apart rfl place located (same ▸ otherLocated)
        rw [migratedAt_of_locate? (located_other.trans otherLocated),
          migratedAt_of_locate? (located_path.trans located), migratedAt_of_locate? located,
          migratedAt_of_locate? otherLocated]
        simp only [FileTree.changeFile_comm ne]
  · simp only [migratedAt_of_ne_inPlace inPlace]

end Workspace

variable {mode : OutputMode} {strategy : Strategy} {paths : List Path} {workspace : Workspace}

/-- Neither of two files that are apart can tell whether the other one has been migrated. -/
theorem independent_migrateAt {path other : Path}
    (apart : mode = .inPlace → workspace.Apart path other) :
    Independent (Workspace.Alike · workspace) (migrateAt mode strategy path)
      (migrateAt mode strategy other) := by
  -- Paths that are apart stay apart, because the names stay as they are.
  have stillApart {state : Workspace} (alike : state.Alike workspace) :
      mode = .inPlace → state.Apart path other := fun inPlace => (apart inPlace).of_alike alike.symm
  constructor
  · intro state alike
    simp only [migrateAt_eq, Workspace.read?_migratedAt (stillApart alike)]
  · intro state alike
    simp only [migrateAt_eq]
    rw [Workspace.read?_migratedAt fun inPlace => (stillApart alike inPlace).symm]
  · intro state alike
    simp only [migrateAt_eq, Workspace.migratedAt_comm (stillApart alike)]

/-- The files of a batch may be migrated in any order: the answers and the workspace stay the same.
-/
theorem unordered_migrateAt (apart : mode = .inPlace → paths.Pairwise workspace.Apart) :
    Unordered (Workspace.Alike · workspace) (migrateAt mode strategy) paths where
  keeps path _ state alike := by
    rw [migrateAt_eq]
    exact (Workspace.alike_migratedAt mode strategy path state).trans alike
  pairwise := by
    by_cases inPlace : mode = .inPlace
    · exact (apart inPlace).imp fun apart => independent_migrateAt fun _ => apart
    · exact List.pairwise_of_forall fun _ _ => independent_migrateAt fun is => absurd is inPlace

/-- Run one after another, the migrations answer from what the paths read at the start. -/
theorem mapM_migrateAt (apart : mode = .inPlace → paths.Pairwise workspace.Apart) :
    (paths.mapM (migrateAt mode strategy) : StateM Workspace _) workspace =
      (paths.map fun path => outcomeOf mode strategy path (workspace.read? path),
        stateAfter (migrateAt mode strategy) paths workspace) := by
  rw [(unordered_migrateAt apart).mapM_eq (.refl workspace)]
  simp only [migrateAt_eq]

/-- A batch is migrated as if its files were taken one after the other, with or without workers. -/
theorem migrateAll_eq_mapM (apart : mode = .inPlace → paths.Pairwise workspace.Apart)
    (parallel : Bool) :
    (migrateAll parallel mode strategy paths : StateM Workspace _) workspace =
      (paths.mapM (migrateAt mode strategy) : StateM Workspace _) workspace := by
  cases parallel with
  | false => rfl
  | true => exact runPooled_eq (unordered_migrateAt apart) (.refl workspace) workspace.processors

section Contents

variable {place : List String} {content : ByteArray}

end Contents

/-- For paths that lead to different files, and for all paths if nothing is replaced, workers that
share a batch give one outcome for each path, in the order of the paths, and leave the workspace that
one worker leaves, in whatever order they take their steps until all have stopped. -/
theorem parallel_agrees_with_sequential (mode : OutputMode) (strategy : Strategy)
    (paths : List Path) (workspace : Workspace) (workers : Nat) (schedule : List Nat)
    (apart : mode = .inPlace → paths.Pairwise workspace.Apart)
    (completes : Completes schedule workers (migrateAt mode strategy) paths workspace) :
    runScheduled schedule workers (migrateAt mode strategy) paths workspace =
        (migrateAll false mode strategy paths : StateM Workspace _) workspace ∧
      (migrateAll true mode strategy paths : StateM Workspace _) workspace =
        (migrateAll false mode strategy paths : StateM Workspace _) workspace ∧
      ((migrateAll false mode strategy paths : StateM Workspace _) workspace).1 =
        paths.map fun path => outcomeOf mode strategy path (workspace.read? path) := by
  refine ⟨?_, migrateAll_eq_mapM apart true, ?_⟩
  · exact runScheduled_eq (unordered_migrateAt apart) (.refl workspace) completes
  · rw [migrateAll_eq_mapM apart, mapM_migrateAt apart]

/-- A workspace with two files. -/
def twoFiles : Workspace where
  tree := .folder [("a.swift", .file "import XCTest\n".toUTF8), ("b.swift", .file "f()\n".toUTF8)]
  current := []
  processors := 2

/-- Two workers that take turns on two files. -/
theorem parallel_agrees_with_sequential_twoFiles :
    runScheduled [0, 1, 1, 1, 0, 0, 0, 1] 2 (migrateAt .inPlace .reference)
        [⟨"a.swift"⟩, ⟨"b.swift"⟩] twoFiles =
      (migrateAll false .inPlace .reference [⟨"a.swift"⟩, ⟨"b.swift"⟩] : StateM Workspace _)
        twoFiles := by
  refine (parallel_agrees_with_sequential _ _ _ _ _ _ ?_ ?_).1
  · intro _
    have located : twoFiles.locate? ⟨"a.swift"⟩ = some ["a.swift"] := by decide +kernel
    have otherLocated : twoFiles.locate? ⟨"b.swift"⟩ = some ["b.swift"] := by decide +kernel
    refine List.pairwise_pair.2 fun place isPlace => ?_
    rw [located] at isPlace
    rw [otherLocated, ← isPlace]
    decide
  · intro _
    unfold Pool.IsStopped
    decide +kernel

end SuiteMigration
