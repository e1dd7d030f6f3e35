import Mathlib.Tactic.Common
import SuiteMigration.Import
import SuiteMigration.Proofs.Tree.Margins

/-!
# Imports of the successor

One loop goes over the statements of a file. If the successor is imported nowhere, the first import
of the legacy framework becomes an import of it; every other one is dropped, and a comment above it
moves to the statement after it. So the file imports the successor just once more than before, or as
often as before, and no other statement changes but for the trivia before one that directly follows
a dropped import.

Which module a statement imports can be told without looking at trivia, so nothing that the loop
carries from one statement to the next changes what it does later.

## Main definitions

* `Statement.importedModule?` - the module that a statement imports as a whole
* `UnchangedBut` - a node is kept, with other trivia before it if that is allowed
* `ImportsMigrated` - what becomes of the statements of a file
* `ImportContract` - what is promised of a file and the outcome of the pass on it

## Main results

* `Statement.importedModule?_setLeading` - other trivia before a statement import the same module
* `importsMigrated_migrateImports` - the loop keeps all other statements
* `countP_target_migrateImports` - the loop adds at most one import of the successor
* `importPass_contract` - the pass meets its contract
-/

namespace SuiteMigration

/-! ### Trivia before an import -/

section Import

variable {module : String}

theorem ImportDecl.path_setLeading (decl : ImportDecl) (trivia : Trivia) :
    (Node.setLeading decl trivia).path = decl.path := by
  obtain ⟨attributes, modifiers, keyword, kind, path⟩ := decl
  -- The keyword is a token, so the first token stands before the path.
  have keyword_first : Node.setLeading (keyword, kind, path) trivia =
      (keyword.withLeading trivia, kind, path) :=
    Node.setLeading_pair_of_ne_nil (List.cons_ne_nil _ _) _ _
  have afterAttributes : ∃ modifiers' keyword',
      Node.setLeading (modifiers, keyword, kind, path) trivia = (modifiers', keyword', kind, path) := by
    by_cases none : Node.tokens modifiers = []
    · exact ⟨_, _, (Node.setLeading_pair_of_eq_nil none _ _).trans (by rw [keyword_first])⟩
    · exact ⟨_, _, Node.setLeading_pair_of_ne_nil none _ _⟩
  rw [ImportDecl.assembles.setLeading (attributes, modifiers, keyword, kind, path)]
  by_cases none : Node.tokens attributes = []
  · obtain ⟨modifiers', keyword', changed⟩ := afterAttributes
    rw [Node.setLeading_pair_of_eq_nil none, changed]
  · rw [Node.setLeading_pair_of_ne_nil none]

/-- The module that the declaration imports as a whole. -/
def ImportDecl.wholeModule? (decl : ImportDecl) : Option String :=
  match decl.path with
  | [token] => some token.text
  | _ => none

/-- The module that a statement with the item imports as a whole. -/
def Item.importedModule? : Item → Option String
  | .decl (.importing imports) => imports.wholeModule?
  | _ => none

/-- The module that the statement imports as a whole. -/
def Statement.importedModule? (statement : Statement) : Option String :=
  statement.item.importedModule?

theorem ImportDecl.wholeModule?_setLeading (decl : ImportDecl) (trivia : Trivia) :
    (Node.setLeading decl trivia).wholeModule? = decl.wholeModule? := by
  rw [wholeModule?, path_setLeading]
  rfl

theorem Decl.importedModule?_setLeading (decl : Decl) (trivia : Trivia) :
    (Node.setLeading (Item.decl decl) trivia).importedModule? =
      (Item.decl decl).importedModule? := by
  rw [Item.assembles_decl.setLeading]
  cases decl with
  | importing decl =>
    rw [Decl.assembles_importing.setLeading]
    exact decl.wholeModule?_setLeading trivia
  | type header members => rw [Decl.assembles_type.setLeading (header, members)]; rfl
  | function header body => rw [Decl.assembles_function.setLeading (header, body)]; rfl
  | «variable» header bindings => rw [Decl.assembles_variable.setLeading (header, bindings)]; rfl
  | initializer header body => rw [Decl.assembles_initializer.setLeading (header, body)]; rfl
  | finalizer header body => rw [Decl.assembles_finalizer.setLeading (header, body)]; rfl
  | raw decl => rw [Decl.assembles_raw.setLeading]; rfl

theorem Item.importedModule?_setLeading (item : Item) (trivia : Trivia) :
    (Node.setLeading item trivia).importedModule? = item.importedModule? := by
  cases item with
  | decl decl => exact Decl.importedModule?_setLeading decl trivia
  | expr expr => rw [Item.assembles_expr.setLeading]; rfl
  | returning keyword value => rw [Item.assembles_returning.setLeading (keyword, value)]; rfl
  | throwing keyword value => rw [Item.assembles_throwing.setLeading (keyword, value)]; rfl
  | conditional statement => rw [Item.assembles_conditional.setLeading]; rfl
  | guarding keyword conditions elseKeyword body =>
    rw [Item.assembles_guarding.setLeading (keyword, conditions, elseKeyword, body)]; rfl
  | forIn keyword modifiers pattern type inKeyword sequence filter body =>
    rw [Item.assembles_forIn.setLeading
      (keyword, modifiers, pattern, type, inKeyword, sequence, filter, body)]; rfl
  | whileLoop keyword conditions body =>
    rw [Item.assembles_whileLoop.setLeading (keyword, conditions, body)]; rfl
  | repeatLoop keyword body whileKeyword condition =>
    rw [Item.assembles_repeatLoop.setLeading (keyword, body, whileKeyword, condition)]; rfl
  | doCatch keyword throwsClause body catches =>
    rw [Item.assembles_doCatch.setLeading (keyword, throwsClause, body, catches)]; rfl
  | switching keyword subject left cases right =>
    rw [Item.assembles_switching.setLeading (keyword, subject, left, cases, right)]; rfl
  | deferring keyword body => rw [Item.assembles_deferring.setLeading (keyword, body)]; rfl
  | raw run => rw [Item.assembles_raw.setLeading]; rfl

namespace Statement

/-- A statement imports the module that it names. -/
theorem isImportOf_eq (statement : Statement) :
    statement.isImportOf module = (statement.importedModule? == some module) := by
  obtain ⟨item, semicolon⟩ := statement
  rcases item with expr | decl
  · rfl
  · rcases decl with ⟨attributes, modifiers, keyword, kind, _ | ⟨token, _ | ⟨second, path⟩⟩⟩ <;>
      rfl
  all_goals rfl

/-- Other trivia before a statement import the same module. -/
theorem importedModule?_setLeading (statement : Statement) (trivia : Trivia) :
    (Node.setLeading statement trivia).importedModule? = statement.importedModule? := by
  obtain ⟨item, semicolon⟩ := statement
  rw [Statement.assembles.setLeading (item, semicolon)]
  by_cases none : Node.tokens item = []
  · rw [Node.setLeading_pair_of_eq_nil none]
    rfl
  · rw [Node.setLeading_pair_of_ne_nil none]
    exact item.importedModule?_setLeading trivia

/-- Leading trivia do not matter to what is imported. -/
theorem isImportOf_setLeading (statement : Statement) (trivia : Trivia) :
    (Node.setLeading statement trivia).isImportOf module = statement.isImportOf module := by
  rw [isImportOf_eq, isImportOf_eq, importedModule?_setLeading]

/-- Carried trivia do not matter to what is imported. -/
theorem isImportOf_withCarried (statement : Statement) (carried : Option Trivia) :
    (statement.withCarried carried).isImportOf module = statement.isImportOf module := by
  cases carried with
  | none => rfl
  | some removed => exact isImportOf_setLeading ..

/-- An import with another module imports that one. -/
theorem isImportOf_withModule {statement : Statement} {old : String}
    (imports : statement.isImportOf old = true) (new : String) :
    (statement.withModule new).isImportOf module = (new == module) := by
  obtain ⟨item, semicolon⟩ := statement
  unfold isImportOf at imports
  split at imports
  · next decl item_eq =>
    obtain rfl : item = .decl (.importing decl) := item_eq
    obtain ⟨attributes, modifiers, keyword, kind, _ | ⟨token, _ | ⟨second, path⟩⟩⟩ := decl
    · cases imports
    · rfl
    · cases imports
  · cases imports

/-- A statement imports one module at most. -/
theorem isImportOf_other {statement : Statement} {old new : String}
    (imports : statement.isImportOf old = true) (other : old ≠ new) :
    statement.isImportOf new = false := by
  rw [isImportOf_eq, beq_iff_eq] at imports
  rw [isImportOf_eq, imports]
  simpa using other

end Statement

end Import

/-! ### The statements of a file -/

/-- The node is kept. Where something was dropped before it, the trivia before it may be other
ones. -/
def UnchangedBut [Node α] (dropped : Bool) (old new : α) : Prop :=
  if dropped then ∃ trivia, new = Node.setLeading old trivia else new = old

/-- What becomes of the statements of a file. The first flag says that an import was dropped right
before the statements, the second that one was dropped at their end. -/
inductive ImportsMigrated : Bool → List Statement → List Statement → Bool → Prop
  | done (dropped : Bool) : ImportsMigrated dropped [] [] dropped
  | keep : old.isImportOf legacyModule = false → UnchangedBut dropped old new →
      ImportsMigrated false later newLater atEnd →
      ImportsMigrated dropped (old :: later) (new :: newLater) atEnd
  | drop : old.isImportOf legacyModule = true → ImportsMigrated true later newLater atEnd →
      ImportsMigrated dropped (old :: later) newLater atEnd
  | rename : old.isImportOf legacyModule = true → ImportsMigrated false later newLater atEnd →
      ImportsMigrated false (old :: later) (old.withModule targetModule :: newLater) atEnd

/-- A statement that trivia are carried to is otherwise unchanged. -/
theorem unchangedBut_withCarried {statement : Statement} {carried : Option Trivia} {dropped : Bool}
    (fresh : dropped = false → carried = none) :
    UnchangedBut dropped statement (statement.withCarried carried) := by
  cases dropped with
  | false =>
    rw [fresh rfl]
    rfl
  | true =>
    cases carried with
    | none => exact ⟨_, (Node.setLeading_leading statement).symm⟩
    | some removed => exact ⟨_, rfl⟩

section Statements

variable (imported : Bool) (carried : Option Trivia) (statements : List Statement)

/-- The loop keeps all other statements. Trivia are carried over from dropped imports only. -/
theorem importsMigrated_migrateImports (dropped : Bool) (fresh : dropped = false → carried = none)
    (renames : imported = false → dropped = false) :
    ∃ atEnd, ImportsMigrated dropped statements (migrateImports imported carried statements).1 atEnd ∧
      (atEnd = false → (migrateImports imported carried statements).2 = none) := by
  induction statements generalizing imported carried dropped with
  | nil => exact ⟨dropped, .done dropped, fresh⟩
  | cons statement later ih =>
    simp only [migrateImports, Statement.isImportOf_withCarried]
    cases legacy : statement.isImportOf legacyModule with
    | false =>
      obtain ⟨atEnd, kept, ends⟩ := ih imported none false (fun _ => rfl) fun _ => rfl
      exact ⟨atEnd, .keep legacy (unchangedBut_withCarried fresh) kept, ends⟩
    | true =>
      cases imported with
      | true =>
        obtain ⟨atEnd, kept, ends⟩ := ih true
          (statement.withCarried carried).carriedTrivia true nofun nofun
        exact ⟨atEnd, .drop legacy kept, ends⟩
      | false =>
        obtain rfl := renames rfl
        obtain rfl := fresh rfl
        obtain ⟨atEnd, kept, ends⟩ := ih true none false (fun _ => rfl) fun _ => rfl
        exact ⟨atEnd, .rename legacy kept, ends⟩

variable {imported carried statements}

/-- No import of the legacy module is left. -/
theorem isImportOf_legacy_migrateImports :
    ∀ statement ∈ (migrateImports imported carried statements).1,
      statement.isImportOf legacyModule = false := by
  induction statements generalizing imported carried with
  | nil => exact List.forall_mem_nil _
  | cons statement later ih =>
    simp only [migrateImports, Statement.isImportOf_withCarried]
    cases legacy : statement.isImportOf legacyModule with
    | false =>
      refine List.forall_mem_cons.2 ⟨?_, ih⟩
      rw [Statement.isImportOf_withCarried, legacy]
    | true =>
      cases imported with
      | true => exact ih
      | false =>
        refine List.forall_mem_cons.2 ⟨?_, ih⟩
        have legacy' : (statement.withCarried carried).isImportOf legacyModule = true := by
          rw [Statement.isImportOf_withCarried, legacy]
        rw [Statement.isImportOf_withModule legacy']
        decide

/-- The loop adds an import of the successor if there is none and it finds one of the legacy
framework. -/
theorem countP_target_migrateImports :
    (migrateImports imported carried statements).1.countP (·.isImportOf targetModule) =
      statements.countP (·.isImportOf targetModule) +
        if !imported && statements.any (·.isImportOf legacyModule) then 1 else 0 := by
  induction statements generalizing imported carried with
  | nil => simp [migrateImports]
  | cons statement later ih =>
    simp only [migrateImports, Statement.isImportOf_withCarried]
    by_cases legacy : statement.isImportOf legacyModule = true
    · have other : statement.isImportOf targetModule = false :=
        Statement.isImportOf_other legacy (by decide)
      have legacy' : (statement.withCarried carried).isImportOf legacyModule = true := by
        rw [Statement.isImportOf_withCarried, legacy]
      cases imported with
      | true => simp [legacy, other, ih]
      | false => simp [legacy, other, ih, Statement.isImportOf_withModule legacy']
    · simp only [legacy, Bool.not_false, if_pos, List.countP_cons, ih, List.any_cons, Bool.false_or,
        Statement.isImportOf_withCarried]
      omega

end Statements

/-! ### The contract -/

/-- What the pass over imports promises of a file. -/
structure ImportContract (file : SourceFile) (outcome : Outcome) : Prop where
  /-- Nothing imports the legacy framework any more. -/
  gone : outcome.file.importsModule legacyModule = false
  /-- A file that imported the legacy framework imports its successor as often as before, and at
  least once. -/
  target : file.importsModule legacyModule = true →
    outcome.file.statements.countP (·.isImportOf targetModule) =
      max 1 (file.statements.countP (·.isImportOf targetModule))
  /-- All other statements are kept, in order, and so is the end of the file. -/
  kept : ∃ atEnd, ImportsMigrated false file.statements outcome.file.statements atEnd ∧
    UnchangedBut atEnd file.endOfFile outcome.file.endOfFile
  changes : outcome.changes = file.statements.countP (·.isImportOf legacyModule)
  /-- There is nothing left to do. -/
  again : (importPass.run outcome.file).file = outcome.file ∧
    (importPass.run outcome.file).changes = 0

/-- Statements without a legacy import are migrated as they are. -/
theorem importsMigrated_self {statements : List Statement}
    (plain : ∀ statement ∈ statements, statement.isImportOf legacyModule = false) :
    ImportsMigrated false statements statements false := by
  induction statements with
  | nil => exact .done false
  | cons statement later ih =>
    rw [List.forall_mem_cons] at plain
    exact .keep plain.1 rfl (ih plain.2)

section File

variable {file : SourceFile}

theorem importsModule_eq_false_iff {module : String} : file.importsModule module = false ↔
    ∀ statement ∈ file.statements, statement.isImportOf module = false := by
  simp [SourceFile.importsModule]

/-- Without a legacy import the pass gives its file back and counts nothing. -/
theorem run_importPass_of_plain (plain : file.importsModule legacyModule = false) :
    (importPass.run file).file = file ∧ (importPass.run file).changes = 0 := by
  simp [importPass, plain]

/-- A file that does not import the legacy framework is kept as it is. -/
theorem importContract_of_plain (plain : file.importsModule legacyModule = false) :
    ImportContract file (importPass.run file) := by
  obtain ⟨same, none⟩ := run_importPass_of_plain plain
  have others := importsModule_eq_false_iff.1 plain
  constructor
  case gone => rw [same, plain]
  case target =>
    intro imports
    rw [plain] at imports
    cases imports
  case kept =>
    rw [same]
    exact ⟨false, importsMigrated_self others, rfl⟩
  case changes =>
    rw [none, eq_comm, List.countP_eq_zero]
    simpa using others
  case again =>
    rw [same]
    exact ⟨same, none⟩

/-- With a legacy import the pass goes through the statements, and counts every import of that
module. -/
theorem run_importPass_of_legacy (legacy : file.importsModule legacyModule = true) :
    (importPass.run file).file.statements =
        (migrateImports (file.importsModule targetModule) none file.statements).1 ∧
      (importPass.run file).changes = file.statements.countP (·.isImportOf legacyModule) := by
  simp [importPass, legacy]

/-- The trivia that no statement has taken in stand before the end of the file. -/
theorem unchangedBut_endOfFile_importPass (legacy : file.importsModule legacyModule = true)
    {atEnd : Bool} (ends : atEnd = false →
      (migrateImports (file.importsModule targetModule) none file.statements).2 = none) :
    UnchangedBut atEnd file.endOfFile (importPass.run file).file.endOfFile := by
  simp only [importPass, legacy, if_pos]
  cases atEnd with
  | false =>
    rw [ends rfl]
    rfl
  | true =>
    cases (migrateImports (file.importsModule targetModule) none file.statements).2 with
    | some removed => exact ⟨_, rfl⟩
    | none => exact ⟨file.endOfFile.leading, rfl⟩

/-- The first legacy import becomes one of the successor unless there is one already. -/
theorem countP_target_importPass (legacy : file.importsModule legacyModule = true) :
    (importPass.run file).file.statements.countP (·.isImportOf targetModule) =
      max 1 (file.statements.countP (·.isImportOf targetModule)) := by
  have some_legacy : file.statements.any (·.isImportOf legacyModule) = true := legacy
  rw [(run_importPass_of_legacy legacy).1, countP_target_migrateImports, some_legacy, Bool.and_true]
  cases imported : file.importsModule targetModule with
  | true =>
    have pos : 0 < file.statements.countP (·.isImportOf targetModule) :=
      List.countP_pos_iff.2 (List.any_eq_true.1 imported)
    rw [Bool.not_true, if_neg Bool.false_ne_true]
    omega
  | false =>
    have zero : file.statements.countP (·.isImportOf targetModule) = 0 := by
      rw [List.countP_eq_zero]
      simpa using importsModule_eq_false_iff.1 imported
    rw [zero, Bool.not_false, if_pos rfl]
    rfl

end File

/-- The pass over imports meets its contract on every file. -/
theorem importPass_contract (file : SourceFile) : ImportContract file (importPass.run file) := by
  cases legacy : file.importsModule legacyModule with
  | false => exact importContract_of_plain legacy
  | true =>
    obtain ⟨statements_eq, changes_eq⟩ := run_importPass_of_legacy legacy
    have gone : (importPass.run file).file.importsModule legacyModule = false := by
      rw [importsModule_eq_false_iff, statements_eq]
      exact isImportOf_legacy_migrateImports
    obtain ⟨atEnd, kept, ends⟩ := importsMigrated_migrateImports
      (file.importsModule targetModule) none file.statements false (fun _ => rfl) fun _ => rfl
    rw [← statements_eq] at kept
    exact {
      gone
      target := fun _ => countP_target_importPass legacy
      kept := ⟨atEnd, kept, unchangedBut_endOfFile_importPass legacy ends⟩
      changes := changes_eq
      again := run_importPass_of_plain gone }

end SuiteMigration
