import Mathlib.Tactic.Common
import SuiteMigration.Proofs.Migration.Assertions
import SuiteMigration.Proofs.Tree.Counting

/-!
# Honest counts of changes

Every pass counts a change just where it makes one. A call that is migrated has another callee
afterwards, a statement that is split begins with a declaration, a suite loses a type from its
header or its keyword, and an import names another module or is gone. None of these can be undone by
another change of the same pass, so a pass that reports no change has returned the tree it was given.

## Main results

* `honest_assertionTransformer`, `honest_throwingTransformer`, `honest_suiteTransformer` - the three
  passes that rebuild a tree count honestly
* `migrateImports_ne` - an import of the legacy framework is never left alone
* `changes_eq_zero_iff` - a pass reports no change just where it makes none
-/

namespace SuiteMigration

/-! ### Assertions -/

/-- A run with a name of the legacy framework. -/
def HasLegacyName (run : List Token) : Prop :=
  ∃ token ∈ run, isLegacyName token.text = true

/-- Tokens are free of legacy names exactly when no single one of them is such a name. -/
theorem free_hasLegacyName_iff {tokens : List Token} :
    Free HasLegacyName tokens ↔ ∀ token ∈ tokens, isLegacyName token.text = false := by
  constructor
  · intro free token member
    have absent := free tokens List.infix_rfl
    exact eq_false_of_ne_true fun legacy => absurd ⟨token, member, legacy⟩ absent
  · rintro plain run within ⟨token, member, legacy⟩
    simp [plain token (within.subset member)] at legacy

/-- Without a legacy name among its tokens, an expression calls no legacy assertion. -/
theorem isLegacyCall_eq_false_of_free {expr : Expr} (free : Free HasLegacyName expr.tokens) :
    expr.isLegacyCall = false :=
  isLegacyCall_eq_false_of_within (free_hasLegacyName_iff.1 free) fun _ member => member

theorem exists_calleeName?_of_isLegacyCall {expr : Expr} (legacy : expr.isLegacyCall = true) :
    expr.name? = none ∧ ∃ name, expr.calleeName? = some name ∧ isLegacyName name = true := by
  unfold Expr.isLegacyCall at legacy
  split at legacy
  · exact ⟨rfl, (Option.any_eq_true _ _).1 (Bool.and_eq_true_iff.1 legacy).2⟩
  · cases legacy

/-- A call of a legacy name becomes another expression. It cannot be the expression from which the
parts of the call were transformed, because the callee had the legacy name then. -/
theorem Expr.Accounted.of_legacyCall {old new migrated : Expr} {kept : Prop}
    (accounted : old.Accounted HasLegacyName kept new) (legacy : new.isLegacyCall = true)
    (renamed : ∀ name, migrated.calleeName? = some name → isLegacyName name = false)
    (unnamed : migrated.name? = none) :
    Accounts HasLegacyName old.tokens old (kept ∧ False) migrated ∧
      migrated.name? = old.name? := by
  obtain ⟨newUnnamed, name, called, isLegacy⟩ := exists_calleeName?_of_isLegacyCall legacy
  refine ⟨⟨?_, ?_⟩, ?_⟩
  · rw [and_false, false_iff]
    rintro rfl
    have other := renamed name (accounted.callee.symm.trans called)
    simp [other] at isLegacy
  · intro free
    obtain rfl := accounted.accounts.kept_iff.1 (accounted.accounts.kept_of_free free)
    simp [isLegacyCall_eq_false_of_free free] at legacy
  · rw [unnamed, ← accounted.name, newUnnamed]

/-- Only legacy calls are turned into expectations. -/
theorem isLegacyCall_of_expectation? {expr new : Expr} (found : expr.expectation? = some new) :
    expr.isLegacyCall = true := by
  by_contra other
  have settled := isSettled_of_not_isLegacyCall (eq_false_of_ne_true other)
  simp [settled.1] at found

/-- Only legacy calls are turned into throwing expectations. -/
theorem isLegacyCall_of_throwing? {expr new : Expr} (found : expr.throwing? = some new) :
    expr.isLegacyCall = true := by
  by_contra other
  have quiet : expr.throwing? = none :=
    (isSettled_of_not_isLegacyCall (eq_false_of_ne_true other)).2
  simp [quiet] at found

theorem isLegacyName_of_calleeName?_migrateAssertion (rule : AssertionRule) (callee : Expr)
    (list : CallArguments) (closure : Option Closure) (name : String)
    (called : (migrateAssertion rule callee list closure).calleeName? = some name) :
    isLegacyName name = false := by
  obtain ⟨replacement, synthesis⟩ := rule
  cases replacement with
  | expect =>
    obtain rfl : "#expect" = name := Option.some.inj called
    decide
  | require =>
    obtain rfl : "#require" = name := Option.some.inj called
    decide
  | issueRecord => cases called

/-- The assertion pass counts a change for every call it rewrites, and for nothing else. -/
theorem honest_assertionTransformer : assertionTransformer.Honest id HasLegacyName where
  expr expr parts counts := by
    refine counts.bind fun kept new accounted => ?_
    cases found : new.expectation? with
    | none =>
      refine .pure ⟨⟨?_, ?_⟩, accounted.name⟩
      · rw [and_true, accounted.accounts.kept_iff]
      · exact fun free => ⟨accounted.accounts.kept_of_free free, trivial⟩
    | some expectation =>
      have legacy := isLegacyCall_of_expectation? found
      obtain ⟨rule, callee, list, closure, rfl, -, rfl⟩ := exists_of_expectation?_eq_some found
      refine .counted (fun _ => Nat.lt_succ_self _) (accounted.of_legacyCall legacy ?_ rfl)
      exact isLegacyName_of_calleeName?_migrateAssertion rule callee list closure
  closure _ _ counts := counts
  decl _ _ counts := counts
  statement _ _ counts := counts.singleton
  enter _ _ := rfl
  leave _ := rfl
  bind _ _ := rfl

/-! ### Assertions about errors -/

/-- Only a statement that is a legacy call is flattened into several. -/
theorem isLegacyCall_of_flattened? {statement : Statement} {firstInFile : Bool}
    {statements : List Statement} (found : statement.flattened? firstInFile = some statements) :
    ∃ expr, statement.item = .expr expr ∧ expr.isLegacyCall = true := by
  rw [Statement.flattened?_eq] at found
  split at found
  · rename_i callee list handler item_eq
    refine ⟨_, item_eq, ?_⟩
    obtain ⟨expectation, expected, -⟩ := Option.bind_eq_some_iff.1 found
    have closed := isClosed_of_throwExpectation? expected
    rw [throwExpectation?, if_pos closed] at expected
    obtain ⟨name, named, known⟩ := Option.bind_eq_some_iff.1 expected
    simpa [Expr.isLegacyCall, closed, named] using isLegacyName_of_ofName? known
  · cases found

/-- Joining statements on one line touches the first of them at most in its semicolon. -/
theorem exists_joinStatements_cons (first : Statement) (later : List Statement) :
    ∃ semicolon newLater,
      joinStatements (first :: later) = { first with semicolon } :: newLater := by
  cases later with
  | nil =>
    obtain ⟨item, semicolon⟩ := first
    exact ⟨semicolon, [], rfl⟩
  | cons second later => exact ⟨_, _, rfl⟩

/-- A statement that is split begins with the declaration that binds the error. -/
theorem exists_decl_of_flattened? {statement : Statement} {firstInFile : Bool}
    {statements : List Statement} (found : statement.flattened? firstInFile = some statements) :
    ∃ first later, statements = first :: later ∧ first.expr? = none := by
  obtain ⟨callee, list, handler, expectation, call, placement, pieces, -, -, rfl, rfl⟩ :=
    Statement.exists_of_flattened?_eq_some found
  -- Neither a semicolon nor the tail of the call makes an expression of the declaration.
  obtain ⟨semicolon, later, joined⟩ : ∃ semicolon later,
      (if placement.sharesLine then
        joinStatements (errorBinding (Node.leading callee) call ::
          handler.statements.map (placement.place handler.errorParameter?))
      else errorBinding (Node.leading callee) call ::
        handler.statements.map (placement.place handler.errorParameter?)) =
        { errorBinding (Node.leading callee) call with semicolon } :: later := by
    split
    · exact exists_joinStatements_cons _ _
    · exact ⟨_, _, rfl⟩
  rw [joined]
  cases later with
  | nil =>
    refine ⟨_, [], rfl, ?_⟩
    unfold Statement.withClosingComments
    split <;> rfl
  | cons second later => exact ⟨_, _, rfl, rfl⟩

/-- The throwing pass counts a change for every expectation it builds, and for nothing else. -/
theorem honest_throwingTransformer :
    throwingTransformer.Honest ThrowingState.changes HasLegacyName where
  expr expr parts counts := by
    rw [throwingTransformer_expr]
    refine counts.bind fun kept new accounted => ?_
    cases found : new.throwing? with
    | none =>
      refine .pure ⟨⟨?_, ?_⟩, accounted.name⟩
      · rw [and_true, accounted.accounts.kept_iff]
      · exact fun free => ⟨accounted.accounts.kept_of_free free, trivial⟩
    | some expectation =>
      have legacy := isLegacyCall_of_throwing? found
      obtain ⟨_, callee, list, rfl, -, call_eq⟩ := exists_of_throwing?_eq_some found
      obtain ⟨body, messages, newList, -, -, -, rfl⟩ :=
        ThrowExpectation.exists_of_call?_eq_some call_eq
      refine .counted (fun _ => Nat.lt_succ_self _) (accounted.of_legacyCall legacy ?_ rfl)
      intro name called
      obtain rfl : "#expect" = name := Option.some.inj called
      decide
  closure _ _ counts := counts
  decl _ _ counts := counts
  statement statement parts counts := by
    rw [throwingTransformer_statement]
    refine .read fun state => .after (fun _ => rfl) (counts.bind fun kept new accounted => ?_)
    cases found : new.flattened? state.atFileStart with
    | none =>
      refine .pure ⟨⟨?_, ?_⟩, Nat.le_refl _⟩
      · simp [accounted.accounts.kept_iff]
      · exact fun free => ⟨accounted.accounts.kept_of_free free, trivial⟩
    | some statements =>
      obtain ⟨expr, item_eq, legacy⟩ := isLegacyCall_of_flattened? found
      obtain ⟨first, later, rfl, isDecl⟩ := exists_decl_of_flattened? found
      refine .counted (fun _ => Nat.lt_succ_self _) ⟨⟨?_, ?_⟩, by simp⟩
      · -- The statement was an expression before, and its first part is none now.
        rw [and_false, false_iff]
        intro same
        obtain rfl : first = statement := (List.cons.inj same).1
        have stays := accounted.expr
        rw [isDecl, Statement.expr?, item_eq] at stays
        cases stays
      · intro free
        obtain rfl := accounted.accounts.kept_iff.1 (accounted.accounts.kept_of_free free)
        obtain ⟨item, semicolon⟩ := new
        obtain rfl : item = .expr expr := item_eq
        simp [isLegacyCall_eq_false_of_free free.left] at legacy
  enter _ _ := rfl
  leave _ := rfl
  bind _ _ := rfl

/-! ### Suites -/

/-- A run that names the class from which legacy suites inherit. -/
def IsLegacyBase (run : List Token) : Prop :=
  InheritedType.isLegacyBase { tokens := run, comma := none } = true

theorem modifyNameEnd_inheritance (header : TypeHeader) (change : Token → Token) :
    (header.modifyNameEnd change).inheritance = header.inheritance := by
  unfold TypeHeader.modifyNameEnd
  split <;> rfl

theorem modifyNameEnd_keyword (header : TypeHeader) (change : Token → Token) :
    (header.modifyNameEnd change).keyword = header.keyword := by
  unfold TypeHeader.modifyNameEnd
  split <;> rfl

/-- Removing an inherited type shortens the clause as erasing it from a list would. -/
theorem length_removeInherited (types : List InheritedType) (index : Nat)
    (removed : InheritedType) :
    (removeInherited types index removed).length = (types.eraseIdx index).length := by
  simp only [removeInherited]
  split
  · exact length_modifyLast _ _
  · split
    · exact length_modifyFirst _ _
    · rfl

/-- The place of the legacy base is a place among the inherited types. -/
theorem TypeHeader.exists_of_isEligible {header : TypeHeader}
    (eligible : header.isEligible = true) :
    header.keyword.text = "class" ∧ ∃ clause index removed,
      header.inheritance = some clause ∧ header.baseIndex? = some index ∧
        clause.types[index]? = some removed ∧ removed.isLegacyBase = true := by
  obtain ⟨keyword, found⟩ := Bool.and_eq_true_iff.1 eligible
  refine ⟨?_, ?_⟩
  · simp only [Token.isKeyword, Bool.and_eq_true, beq_iff_eq] at keyword
    exact keyword.2
  · obtain ⟨index, index_eq⟩ := Option.isSome_iff_exists.1 found
    obtain ⟨clause, clause_eq, place⟩ := Option.bind_eq_some_iff.1 index_eq
    obtain ⟨bound, isBase, -⟩ := List.findIdx?_eq_some_iff_getElem.1 place
    exact ⟨clause, index, _, clause_eq, index_eq, List.getElem?_eq_getElem bound, isBase⟩

/-- Taking the legacy base from an eligible header does change its clause. -/
theorem removeBase_ne {header : TypeHeader} (eligible : header.isEligible = true) :
    (removeBase header).inheritance ≠ header.inheritance := by
  obtain ⟨-, clause, index, removed, clause_eq, index_eq, place, -⟩ :=
    TypeHeader.exists_of_isEligible eligible
  have bound : index < clause.types.length := (List.getElem?_eq_some_iff.1 place).1
  have shorter : (clause.types.eraseIdx index).length < clause.types.length := by
    rw [List.length_eraseIdx_of_lt bound]
    omega
  unfold removeBase
  simp only [clause_eq, index_eq, place]
  split
  · simp [modifyNameEnd_inheritance]
  · intro same
    have types_eq := congrArg (fun clause => clause.types.length) (Option.some.inj same)
    simp only [length_removeInherited] at types_eq
    omega

theorem addNoncopyable_keyword (header : TypeHeader) :
    (addNoncopyable header).keyword = header.keyword := by
  unfold addNoncopyable
  split
  · rfl
  · split
    · rfl
    · exact modifyNameEnd_keyword _ _

/-- A suite loses the base in its header, and a structure its old keyword as well. -/
theorem convertSuite_ne (strategy : Strategy) {header : TypeHeader} (members : CodeBlock)
    (eligible : header.isEligible = true) :
    convertSuite strategy header members ≠ .type header members := by
  cases strategy with
  | reference =>
    intro same
    have header_eq : removeBase header = header := (Decl.type.inj same).1
    exact removeBase_ne eligible (congrArg TypeHeader.inheritance header_eq)
  | value =>
    intro same
    have header_eq := congrArg (fun header => header.keyword.text) (Decl.type.inj same).1
    have isClass := (TypeHeader.exists_of_isEligible eligible).1
    have isStruct : (removeBase header).toStruct.keyword.text = "struct" := rfl
    split at header_eq
    · rw [addNoncopyable_keyword, isStruct, isClass] at header_eq
      exact absurd header_eq (by decide)
    · rw [isStruct, isClass] at header_eq
      exact absurd header_eq (by decide)

/-- The tokens of an inherited type stand in a row in the tokens of the declaration. -/
theorem InheritedType.infix_tokens {header : TypeHeader} {clause : InheritanceClause}
    {type : InheritedType} (members : CodeBlock) (clause_eq : header.inheritance = some clause)
    (member : type ∈ clause.types) : type.tokens <:+: (Decl.type header members).tokens := by
  obtain ⟨before, after, types_eq⟩ := List.append_of_mem member
  have inType : type.tokens <:+: Node.tokens clause.types := by
    rw [types_eq]
    refine ⟨Node.tokens before, Node.tokens type.comma ++ Node.tokens after, ?_⟩
    simp [Node.tokens]
  have inClause : Node.tokens clause.types <:+: Node.tokens header.inheritance := by
    rw [clause_eq]
    exact (List.suffix_cons _ _).isInfix
  have inHeader : Node.tokens header.inheritance <:+: Node.tokens header :=
    ((List.suffix_append _ _).isInfix).trans (List.prefix_append _ _).isInfix
  have inDecl : Node.tokens header <:+: (Decl.type header members).tokens :=
    (List.prefix_append _ _).isInfix
  exact inType.trans (inClause.trans (inHeader.trans inDecl))

/-- A declaration without a legacy base among its tokens is no suite. -/
theorem isEligible_eq_false_of_free {header : TypeHeader} {members : CodeBlock}
    (free : Free IsLegacyBase (Decl.type header members).tokens) :
    header.isEligible = false := by
  by_contra eligible
  obtain ⟨-, clause, index, removed, clause_eq, -, place, isBase⟩ :=
    TypeHeader.exists_of_isEligible (Bool.of_not_eq_false eligible)
  have member : removed ∈ clause.types := List.mem_of_getElem? place
  exact free _ (InheritedType.infix_tokens members clause_eq member) isBase

/-- The suite pass counts a change for every suite it converts, and for nothing else. -/
theorem honest_suiteTransformer (strategy : Strategy) :
    (suiteTransformer strategy).Honest id IsLegacyBase where
  expr _ _ counts := counts.mono fun _ _ accounted => ⟨accounted.accounts, accounted.name⟩
  closure _ _ counts := counts
  decl decl parts counts := by
    simp only [suiteTransformer]
    split
    · rename_i header members
      split
      · rename_i eligible
        refine .counted (fun _ => Nat.lt_succ_self _) ⟨?_, ?_⟩
        · rw [false_iff]
          exact convertSuite_ne strategy members eligible
        · intro free
          simp [isEligible_eq_false_of_free free] at eligible
      · exact counts
    -- Functions are not searched.
    · exact .pure (.refl _ _ _)
    · exact counts
  statement _ _ counts := counts.singleton
  enter _ _ := rfl
  leave _ := rfl
  bind _ _ := rfl

/-! ### Imports -/

/-- Writing another module into an import changes the statement. -/
theorem Statement.withModule_ne {statement : Statement} {old new : String}
    (imports : statement.isImportOf old = true) (other : new ≠ old) :
    statement.withModule new ≠ statement := by
  unfold Statement.isImportOf at imports
  split at imports
  · rename_i decl item_eq
    unfold ImportDecl.isModule at imports
    split at imports
    · rename_i token path_eq
      intro same
      rw [Statement.withModule, item_eq] at same
      have item_same := (congrArg Statement.item same).trans item_eq
      have path_same := congrArg ImportDecl.path (Decl.importing.inj (Item.decl.inj item_same))
      simp only [path_eq, modifyFirst, List.cons.injEq, and_true] at path_same
      have text_same : new = token.text := congrArg Token.text path_same
      exact other (text_same.trans (beq_iff_eq.1 imports))
    · cases imports
  · cases imports

/-- The import pass only ever drops statements. -/
theorem length_migrateImports_le (imported : Bool) (carried : Option Trivia)
    (statements : List Statement) :
    (migrateImports imported carried statements).1.length ≤ statements.length := by
  induction statements generalizing imported carried with
  | nil => simp [migrateImports]
  | cons statement later ih =>
    simp only [migrateImports]
    split
    · simpa using ih imported none
    · split
      · exact Nat.le_succ_of_le (ih true _)
      · simpa using ih true none

/-- The first import of the legacy framework names another module afterwards, or it is gone and
nothing takes its place. -/
theorem migrateImports_ne (imported : Bool) {statements : List Statement}
    (imports : ∃ statement ∈ statements, statement.isImportOf legacyModule = true) :
    (migrateImports imported none statements).1 ≠ statements := by
  induction statements with
  | nil => simp at imports
  | cons statement later ih =>
    simp only [migrateImports, Statement.withCarried]
    by_cases legacy : statement.isImportOf legacyModule = true
    · simp only [legacy, Bool.not_true, Bool.false_eq_true, if_false]
      split
      · intro same
        have shorter := length_migrateImports_le true statement.carriedTrivia later
        rw [same, List.length_cons] at shorter
        omega
      · intro same
        exact Statement.withModule_ne legacy (by decide) (List.cons.inj same).1
    · simp only [eq_false_of_ne_true legacy, Bool.not_false, if_true]
      intro same
      refine ih ?_ (List.cons.inj same).2
      obtain ⟨other, member, isImport⟩ := imports
      rcases List.mem_cons.1 member with rfl | inLater
      · exact absurd isImport legacy
      · exact ⟨other, inLater, isImport⟩

/-- The import pass counts no change exactly when it gives its file back. -/
theorem importPass_changes_eq_zero_iff (file : SourceFile) :
    (importPass.run file).changes = 0 ↔ (importPass.run file).file = file := by
  by_cases imports : file.importsModule legacyModule = true
  · have some_import := List.any_eq_true.1 imports
    simp only [importPass, imports, if_true, List.countP_eq_zero]
    constructor
    · intro none_import
      obtain ⟨statement, member, isImport⟩ := some_import
      exact absurd isImport (none_import statement member)
    · intro same
      exact absurd (congrArg SourceFile.statements same) (migrateImports_ne _ some_import)
  · simp [importPass, imports]

/-! ### The passes -/

/-- A pass made of an honest transformer that starts at zero counts no change exactly when it gives
its file back. -/
theorem changes_ofTransformer_eq_zero_iff {σ : Type} {t : Transformer σ} {count : σ → Nat}
    {bad : List Token → Prop} (laws : t.Honest count bad) {initial : σ}
    (start : count initial = 0) (file : SourceFile) :
    (Outcome.ofTransformer t initial count file).changes = 0 ↔
      (Outcome.ofTransformer t initial count file).file = file := by
  have counted := (laws.counts_statements file.statements initial).2.accounts.kept_iff
  rw [start] at counted
  refine counted.trans ⟨?_, ?_⟩
  · intro same
    exact congrArg (SourceFile.mk · file.endOfFile) same
  · intro same
    exact congrArg SourceFile.statements same

/-- Every pass reports that it has made no change just where the tree it returns is the tree it was
given, with all trivia. -/
theorem changes_eq_zero_iff (strategy : Strategy) (file : SourceFile) (pass : Pass)
    (member : pass ∈ passes strategy) :
    (pass.run file).changes = 0 ↔ (pass.run file).file = file := by
  simp only [passes, List.mem_cons, List.not_mem_nil, or_false] at member
  rcases member with rfl | rfl | rfl | rfl
  · exact importPass_changes_eq_zero_iff file
  · exact changes_ofTransformer_eq_zero_iff honest_throwingTransformer rfl file
  · exact changes_ofTransformer_eq_zero_iff honest_assertionTransformer rfl file
  · exact changes_ofTransformer_eq_zero_iff (honest_suiteTransformer strategy) rfl file

/-- A suite that does not inherit from the legacy base directly is not counted, so it is left. -/
theorem changes_eq_zero_iff_derived :
    ((suitePass .value).run (.parse "class A: Base { func testB() {} }")).file =
      .parse "class A: Base { func testB() {} }" :=
  (changes_eq_zero_iff .value _ (suitePass .value) (by simp [passes])).1 (by decide +kernel)

end SuiteMigration
