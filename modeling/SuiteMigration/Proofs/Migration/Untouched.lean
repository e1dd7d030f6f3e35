import Mathlib.Tactic.Common
import SuiteMigration.Proofs.Lexing.Words
import SuiteMigration.Proofs.Migration.Changes

/-!
# Files that are left alone

A text in which no token begins like a name of the legacy framework has nothing to migrate. This is
plain of imports and of assertions, which are known by the text of one token. The base of a suite is
known by a text that is put together from several tokens and the trivia between them, but no such
text begins like a legacy name unless one of the tokens does.

So the pass over imports loses nothing when it ends the migration of a file, and a migrated text
without legacy names stays as it is when it is migrated again. Migrating twice does change something
where a suite is nested in another one: the conversion of the outer suite does not look for suites
among its members, and the next migration finds the inner one.

## Main results

* `free_isLegacyBase_parse`, `free_hasLegacyName_parse` - no run of the tokens of such a text is of
  interest to a pass
* `runPasses_eq_self` - passes that leave a tree alone one by one leave it alone together
* `plain_source_untouched` - a text without legacy names is left alone
* `migrate_migrate_of_plain` - so is a migrated text without legacy names
-/

namespace SuiteMigration

/-! ### Runs of tokens -/

theorem renderAll_modifyLast_isPrefix (tokens : List Token) :
    (Token.renderAll (modifyLast (·.withTrailing "") tokens)).toList <+:
      (Token.renderAll tokens).toList := by
  match tokens with
  | [] => exact List.prefix_rfl
  | [last] => exact ⟨last.trailing.toList, by simp [modifyLast, Token.render, Token.withTrailing]⟩
  | first :: second :: later =>
    simpa [modifyLast] using renderAll_modifyLast_isPrefix (second :: later)

/-- What a run spells without the trivia at its ends is the beginning of the text from its first
word on. -/
theorem trimmed_isPrefix (token : Token) (later : List Token) :
    (Node.trimmed (token :: later)).toList <+:
      token.text.toList ++ (token.trailing.toList ++ (Token.renderAll later).toList) := by
  have cut := renderAll_modifyLast_isPrefix (token.withLeading "" :: later)
  simpa [Node.trimmed, Node.tokens, modifyFirst, Token.render, Token.withLeading] using cut

section Plain

variable {source : String}

/-- No token of the text begins like a legacy name. -/
def IsPlain (source : String) : Prop :=
  ∀ token ∈ (tokenize source).toList, token.startsWith legacyStart = false

instance : Decidable (IsPlain source) :=
  inferInstanceAs (Decidable (∀ token ∈ (tokenize source).toList, _ = false))

/-- Nowhere does the text from a token of the tree on begin like a legacy name. -/
theorem IsPlain.not_isPrefix (plain : IsPlain source) {before later : List Token} {token : Token}
    (split : tokensOfStatements (SourceFile.parse source).statements = before ++ token :: later) :
    ¬ legacyStart.toList <+:
      token.text.toList ++ (token.trailing.toList ++ (Token.renderAll later).toList) := by
  intro start
  have letters : legacyStart.toList.all Char.isAlpha = true := by decide
  obtain ⟨other, member, begins⟩ :=
    exists_token_of_split (List.all_eq_true.1 letters) (by decide) split start
  have absent := plain other (List.mem_append_left _ member)
  rw [Token.startsWith, List.isPrefixOf_iff_prefix.2 begins] at absent
  cases absent

theorem free_hasLegacyName_parse (plain : IsPlain source) :
    Free HasLegacyName (tokensOfStatements (SourceFile.parse source).statements) := by
  rw [free_hasLegacyName_iff]
  intro token member
  obtain ⟨before, later, split⟩ := List.append_of_mem member
  by_contra legacy
  have begins : legacyStart.toList <+: token.text.toList :=
    List.isPrefixOf_iff_prefix.1 (Bool.of_not_eq_false legacy)
  exact plain.not_isPrefix split (begins.trans (List.prefix_append _ _))

theorem legacyStart_prefix_of_isLegacyBase {run : List Token} (isBase : IsLegacyBase run) :
    legacyStart.toList <+: (Node.trimmed run).toList := by
  simp only [IsLegacyBase, InheritedType.isLegacyBase, InheritedType.name, Bool.or_eq_true,
    beq_iff_eq] at isBase
  rcases isBase with spelled | spelled
  · rw [spelled]
    decide
  · rw [spelled]
    decide

theorem free_isLegacyBase_parse (plain : IsPlain source) :
    Free IsLegacyBase (tokensOfStatements (SourceFile.parse source).statements) := by
  rintro run ⟨before, after, split⟩ isBase
  have start := legacyStart_prefix_of_isLegacyBase isBase
  cases run with
  | nil => exact absurd start (by decide)
  | cons token later =>
    rw [List.append_assoc, List.cons_append] at split
    refine plain.not_isPrefix split.symm (start.trans ((trimmed_isPrefix token later).trans ?_))
    exact ⟨(Token.renderAll after).toList, by simp⟩

/-- The tokens that a token of a tree stands for begin like a legacy name only if it does. -/
theorem Token.startsWith_of_mem_atoms {token atom : Token} (isAtom : atom ∈ token.atoms)
    (plain : token.startsWith legacyStart = false) : atom.startsWith legacyStart = false := by
  unfold Token.atoms at isAtom
  split at isAtom
  · cases isAtom
  split at isAtom
  · -- Neither a cast nor its mark is a legacy name.
    simp only [List.mem_cons, List.not_mem_nil, or_false] at isAtom
    rcases isAtom with rfl | rfl
    · dsimp only [Token.startsWith]
      decide
    · dsimp only [Token.startsWith]
      split <;> decide
  · exact List.mem_singleton.1 isAtom ▸ plain

/-- The tokens of a tree and those of its text begin like a legacy name together. -/
theorem isPlain_of_not_mentionsLegacy
    (absent : (SourceFile.parse source).mentionsLegacy = false) : IsPlain source := by
  intro token member
  rcases List.mem_append.1 member with inText | atEnd
  · rw [← SourceFile.atomsOf_tokensOfStatements_parse, Token.atomsOf, List.mem_flatMap] at inText
    obtain ⟨owner, owned, isAtom⟩ := inText
    have inTree : owner ∈ Node.tokens (SourceFile.parse source) := List.mem_append_left _ owned
    exact Token.startsWith_of_mem_atoms isAtom
      (eq_false_of_ne_true (List.any_eq_false.1 absent owner inTree))
  · obtain rfl := List.mem_singleton.1 atEnd
    rfl

end Plain

/-! ### Passes -/

/-- The pass returns the tree it was given and reports no change. -/
def Pass.LeavesAlone (pass : Pass) (file : SourceFile) : Prop :=
  (pass.run file).file = file ∧ (pass.run file).changes = 0

theorem leavesAlone_ofTransformer {σ : Type} {t : Transformer σ} {count : σ → Nat}
    {bad : List Token → Prop} (laws : t.Honest count bad) {initial : σ}
    (start : count initial = 0) {file : SourceFile}
    (free : Free bad (tokensOfStatements file.statements)) :
    (Outcome.ofTransformer t initial count file).file = file ∧
      (Outcome.ofTransformer t initial count file).changes = 0 := by
  have accounts := (laws.counts_statements file.statements initial).2.accounts
  have kept : (Outcome.ofTransformer t initial count file).changes = 0 := by
    have stays := accounts.kept_of_free free
    rw [start] at stays
    exact stays
  exact ⟨(changes_ofTransformer_eq_zero_iff laws start file).1 kept, kept⟩

theorem mem_tokensOfStatements {statements : List Statement} {token : Token} :
    token ∈ tokensOfStatements statements ↔ ∃ statement ∈ statements, token ∈ statement.tokens := by
  induction statements with
  | nil => simp [tokensOfStatements]
  | cons statement later ih => simp [tokensOfStatements, ih]

theorem importsModule_eq_false_of_free {file : SourceFile}
    (free : Free HasLegacyName (tokensOfStatements file.statements)) :
    file.importsModule legacyModule = false := by
  by_contra imports
  obtain ⟨statement, member, isImport⟩ := List.any_eq_true.1 (Bool.of_not_eq_false imports)
  obtain ⟨item, semicolon⟩ := statement
  unfold Statement.isImportOf at isImport
  split at isImport
  · rename_i decl item_eq
    obtain rfl : item = .decl (.importing decl) := item_eq
    unfold ImportDecl.isModule at isImport
    split at isImport
    · rename_i token path_eq
      have inStatement : token ∈ (Statement.mk (.decl (.importing decl)) semicolon).tokens := by
        simp [Statement.tokens, Item.tokens, Decl.tokens, Node.tokens, path_eq]
      have plain := free_hasLegacyName_iff.1 free token
        (mem_tokensOfStatements.2 ⟨_, member, inStatement⟩)
      rw [beq_iff_eq.1 isImport] at plain
      exact absurd plain (by decide)
    · cases isImport
  · cases isImport

/-- A tree is left alone if no token of it is a legacy name, and no run of its tokens spells a base of
suites. -/
theorem leavesAlone_of_free {file : SourceFile}
    (names : Free HasLegacyName (tokensOfStatements file.statements))
    (bases : Free IsLegacyBase (tokensOfStatements file.statements)) (strategy : Strategy)
    {pass : Pass} (member : pass ∈ passes strategy) : pass.LeavesAlone file := by
  simp only [passes, List.mem_cons, List.not_mem_nil, or_false] at member
  rcases member with rfl | rfl | rfl | rfl
  · simp [Pass.LeavesAlone, importPass, importsModule_eq_false_of_free names]
  · exact leavesAlone_ofTransformer honest_throwingTransformer rfl names
  · exact leavesAlone_ofTransformer honest_assertionTransformer rfl names
  · exact leavesAlone_ofTransformer (honest_suiteTransformer strategy) rfl bases

theorem leavesAlone_of_isPlain {source : String} (plain : IsPlain source) (strategy : Strategy)
    {pass : Pass} (member : pass ∈ passes strategy) : pass.LeavesAlone (.parse source) :=
  leavesAlone_of_free (free_hasLegacyName_parse plain) (free_isLegacyBase_parse plain) strategy member

/-! ### The migration -/

theorem runPasses_eq_self {passes : List Pass} {file : SourceFile}
    (alone : ∀ pass ∈ passes, pass.LeavesAlone file) : runPasses passes file = file := by
  induction passes with
  | nil => rfl
  | cons pass later ih =>
    rw [List.forall_mem_cons] at alone
    rw [runPasses]
    simp only [alone.1.1, ih alone.2, ite_self]

theorem foldl_run_eq_self {passes : List Pass} {file : SourceFile}
    (alone : ∀ pass ∈ passes, pass.LeavesAlone file) :
    passes.foldl (fun file pass => (pass.run file).file) file = file := by
  induction passes with
  | nil => rfl
  | cons pass later ih =>
    rw [List.forall_mem_cons] at alone
    rw [List.foldl_cons, alone.1.1, ih alone.2]

/-- A text in which no token begins like a legacy name is left alone: every pass returns its tree and
reports no change, and the migration gives back what the tree of the text renders to. Where the pass
over imports ends the migration, the text is of this kind, so that running the other passes would
have changed nothing; with or without the end, the migration of any text has the same result. -/
theorem plain_source_untouched (strategy : Strategy) (source : String) :
    ((∀ token ∈ (tokenize source).toList, token.startsWith "XCT" = false) →
      (∀ pass ∈ passes strategy, (pass.run (.parse source)).file = .parse source ∧
        (pass.run (.parse source)).changes = 0) ∧
      migrate strategy source = Node.render (SourceFile.parse source)) ∧
    ((importPass.run (.parse source)).flow = .halt →
      ∀ pass ∈ passes strategy, (pass.run (.parse source)).file = .parse source ∧
        (pass.run (.parse source)).changes = 0) ∧
    migrateFile strategy (.parse source) =
      (passes strategy).foldl (fun file pass => (pass.run file).file) (.parse source) := by
  have alone (plain : IsPlain source) :
      ∀ pass ∈ passes strategy, pass.LeavesAlone (.parse source) :=
    fun _ member => leavesAlone_of_isPlain plain strategy member
  have halted (ends : (importPass.run (.parse source)).flow = .halt) : IsPlain source :=
    isPlain_of_not_mentionsLegacy (of_importPass_halt ends).2
  refine ⟨fun plain => ⟨alone plain, ?_⟩, fun ends => alone (halted ends), ?_⟩
  · rw [migrate, migrateFile, runPasses_eq_self (alone plain)]
  · by_cases ends : (importPass.run (.parse source)).flow = .halt
    · rw [migrateFile, runPasses_eq_self (alone (halted ends)),
        foldl_run_eq_self (alone (halted ends))]
    · exact migrateFile_of_proceed strategy ends

/-- A text without legacy names, and one of which the migration is ended. -/
theorem plain_source_untouched_declaration :
    migrate .value "let x = 1 // XCTest\n" = "let x = 1 // XCTest\n" ∧
      ((suitePass .value).run (.parse "import Testing\nstruct A {}\n")).changes = 0 := by
  refine ⟨?_, ?_⟩
  · have untouched := (plain_source_untouched .value "let x = 1 // XCTest\n").1 (by decide +kernel)
    exact untouched.2.trans (by decide +kernel)
  · have ended := (plain_source_untouched .value "import Testing\nstruct A {}\n").2.1
      (by decide +kernel)
    exact (ended (suitePass .value) (by simp [passes])).2

/-! ### Migrating twice -/

/-- The tree of a text renders to the text if all pieces but the last are exact. -/
theorem render_parse_of_exact {source : String}
    (exact : ∀ piece ∈ (Piece.segment source.toList).dropLast, piece.Exact) :
    Node.render (SourceFile.parse source) = source := by
  have start : Attachment.Fit {} := by simp [Attachment.Fit]
  have wellFormed : ∀ piece ∈ Piece.segment source.toList, piece.WellFormed :=
    fun _ => Piece.wellFormed_of_mem_segment
  have adds := Attachment.adds_foldl_step start rfl wellFormed ?_
  · rw [SourceFile.parse, SourceFile.render_ofTokens rfl, ← String.toList_inj,
      toList_renderAll_tokenize adds, Piece.flatMap_text_segment]
  · intro before piece after split followed
    refine exact piece ?_
    rw [split, List.dropLast_append_of_ne_nil (List.cons_ne_nil _ _),
      List.dropLast_cons_of_ne_nil followed]
    simp

/-- A migrated text stays as it is when it is migrated again, if no token of it begins like a legacy
name and no comment of it makes the reader skip what follows. -/
theorem migrate_migrate_of_plain (strategy : Strategy) (source : String)
    (plain : ∀ token ∈ (tokenize (migrate strategy source)).toList,
      token.startsWith "XCT" = false)
    (exact : ∀ piece ∈ (Piece.segment (migrate strategy source).toList).dropLast, piece.Exact) :
    migrate strategy (migrate strategy source) = migrate strategy source := by
  have alone (pass : Pass) (member : pass ∈ passes strategy) :
      pass.LeavesAlone (.parse (migrate strategy source)) :=
    leavesAlone_of_isPlain plain strategy member
  calc migrate strategy (migrate strategy source)
      = Node.render (SourceFile.parse (migrate strategy source)) := by
        rw [migrate, migrateFile, runPasses_eq_self alone]
    _ = migrate strategy source := render_parse_of_exact exact

/-- A suite with an assertion. -/
theorem migrate_migrate_of_plain_suite :
    migrate .value (migrate .value
        "class A: XCTestCase { let b = XCTUnwrap(c) }") =
      migrate .value
        "class A: XCTestCase { let b = XCTUnwrap(c) }" :=
  migrate_migrate_of_plain _ _ (by decide +kernel) (by decide +kernel)

/-- The conversion of a suite does not look for suites among its members, so a suite that is nested
in another one is converted only when the text is migrated again. -/
theorem migrate_migrate_ne_nested :
    migrate .reference (migrate .reference
        "class A: XCTestCase { class B: XCTestCase {} }") ≠
      migrate .reference "class A: XCTestCase { class B: XCTestCase {} }" := by
  decide +kernel

end SuiteMigration
