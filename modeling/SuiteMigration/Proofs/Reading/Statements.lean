import SuiteMigration.Proofs.Reading.Expressions

/-!
# Reading statements and declarations

Each function that reads statements keeps its tokens and settles, provided the functions it calls
do. With the functions that read expressions this closes the induction on the fuel.

## Main results

* `Settled.keeps_forLoop`, `Settled.keeps_switchStatement` and others - each kind of statement
* `Settled.statement_succ`, `Settled.item_succ`, `Settled.decl_succ` and others - one step of fuel
  for each function
* `settled` - with enough fuel every function of the grammar has settled
* `Parser.agree_fileStatements` - the statements of a file hold all its tokens
-/

namespace SuiteMigration

/-- The label of a case has at least one token. -/
theorem Cursor.pos_of_atCaseLabel {cursor : Cursor} (proper : cursor.Proper)
    (label : cursor.atCaseLabel = true) : cursor.pending ≠ [] ∧ 0 < cursor.labelRun := by
  have word : cursor.peek.kind = .identifier ∨ cursor.peek.kind = .atSign := by
    simp only [atCaseLabel, atKeyword, isAt, Token.isKeyword, Bool.or_eq_true, Bool.and_eq_true,
      beq_iff_eq] at label
    obtain (word | word) | word := label
    · exact .inl word.1
    · exact .inl word.1.1
    · exact .inr word.1
  have rest : cursor.pending ≠ [] :=
    proper.pending_ne_nil (by rcases word with kind | kind <;> simp [kind])
  refine ⟨rest, ?_⟩
  obtain ⟨token, later, pending⟩ := List.exists_cons_of_ne_nil rest
  have kind : token.kind = .identifier ∨ token.kind = .atSign := by
    simpa [peek, pending] using word
  have plain : token.kind ≠ .rightBrace ∧ token.kind ≠ .colon ∧ token.kind.isOpening = false ∧
      token.kind.isClosing = false := by
    rcases kind with kind | kind <;> rw [kind] <;> decide
  rw [labelRun, pending, caseLabel]
  simp only [plain, beq_iff_eq, Bool.and_eq_true, and_false, if_false, Bool.false_eq_true]
  exact Nat.lt_of_lt_of_le Nat.one_pos (Nat.le_add_right _ _)

namespace Settled

open SuiteMigration.Parser

variable {n m : Nat} {cursor : Cursor}

theorem statements_succ (settled : Settled n m) (fueled : cursor.Fueled 10 (n + 1) (m + 1)) :
    Keeps (Parser.statements (n + 1)) (Parser.statements (m + 1)) tokensOfStatements cursor := by
  rw [Parser.statements, Parser.statements]
  refine .ask (.ite (fun _ => .pure (.refl cursor)) fun more => ?_)
  refine (settled.statement cursor (fueled.here (by decide))).bind ?_
  rintro first next ⟨_, firstTaken⟩
  have taken := firstTaken (by intro none; simp [Cursor.atEnd, none] at more)
  refine (settled.statements next (fueled.advance taken (by decide))).bind ?_
  intro later last laterReads
  exact .pure (taken.then laterReads).toReads

theorem statement_succ (settled : Settled n m) (fueled : cursor.Fueled 9 (n + 1) (m + 1)) :
    Agree (Parser.statement (n + 1)) (Parser.statement (m + 1)) cursor fun node next =>
      cursor.Reads node.tokens next ∧ (cursor.pending ≠ [] → cursor.Takes node.tokens next) := by
  rw [Parser.statement, Parser.statement]
  refine .ask ((settled.item cursor (fueled.here (by decide))).bind ?_)
  intro item next itemReads
  refine .ask (.join (fun item last => cursor.Reads item.tokens last ∧
    (cursor.pending ≠ [] → cursor.Takes item.tokens last)) (fun same => ?_) (fun moved => ?_) ?_)
  · -- Nothing was read, so the item holds no token that a single one could repeat.
    have atoms := itemReads.atoms
    have pending : next.pending = cursor.pending := itemReads.suffix.eq_of_length same
    rw [pending, List.self_eq_append_left] at atoms
    have here : cursor.Reads [] next := itemReads.of_atoms atoms.symm
    refine .map ⟨_, _, rfl, rfl, here.trans next.reads_bump, fun rest => ?_⟩
    exact (Cursor.takes_bump (pending ▸ rest)).after here
  · have fewer : next.left < cursor.left := Nat.lt_of_le_of_ne itemReads.left_le moved
    exact .pure ⟨itemReads, fun _ => ⟨itemReads, fewer⟩⟩
  · rintro item last ⟨itemReads, itemTaken⟩
    refine (agree_bumpIf _ last).bind ?_
    intro semicolon final semicolonReads
    exact .pure ⟨itemReads.trans semicolonReads, fun rest => (itemTaken rest).then semicolonReads⟩

theorem codeBlock_succ (settled : Settled n m) (fueled : cursor.Fueled 1 (n + 1) (m + 1)) :
    Keeps (Parser.codeBlock (n + 1)) (Parser.codeBlock (m + 1)) CodeBlock.tokens cursor := by
  rw [Parser.codeBlock, Parser.codeBlock]
  refine (agree_bumpIf_of_ne_nil
    fun brace => fueled.proper.pending_ne_nil_of_isAt brace (by decide)).bind ?_
  rintro brace next ⟨braceReads, braceTaken⟩
  cases brace with
  | none => exact .pure (braceReads.of_atoms rfl)
  | some leftBrace =>
    have taken := braceTaken rfl
    refine (settled.statements next (fueled.advance taken (by decide))).bind ?_
    intro statements last statementsReads
    refine (agree_expect _ last).bind ?_
    intro rightBrace final closerReads
    exact .pure ((taken.then statementsReads).then closerReads).toReads

theorem optionalBlock_succ (settled : Settled n m) (fueled : cursor.Fueled 2 (n + 1) (m + 1)) :
    Keeps (Parser.codeBlock? (n + 1)) (Parser.codeBlock? (m + 1)) tokensOfBlock? cursor := by
  rw [Parser.codeBlock?, Parser.codeBlock?]
  refine .ask (.ite (fun _ => ?_) fun _ => .pure (.refl cursor))
  exact .map (settled.codeBlock cursor (fueled.here (by decide)))

theorem ifStatement_succ (settled : Settled n m) (fueled : cursor.Fueled 7 (n + 1) (m + 1)) :
    Keeps (Parser.ifStatement (n + 1)) (Parser.ifStatement (m + 1)) IfStatement.tokens cursor := by
  rw [Parser.ifStatement, Parser.ifStatement]
  refine (agree_bump cursor).bind ?_
  intro keyword next reads
  refine (settled.conditions next (fueled.lower reads (by decide))).bind ?_
  intro conditions next conditionsReads
  have reads := reads.trans conditionsReads
  refine (settled.codeBlock next (fueled.lower reads (by decide))).bind ?_
  intro body next bodyReads
  have reads := reads.trans bodyReads
  refine (settled.elseClause next (fueled.lower reads (by decide))).bind ?_
  intro alternative last alternativeReads
  exact .pure (reads.trans alternativeReads)

theorem elseClause_succ (settled : Settled n m) (fueled : cursor.Fueled 1 (n + 1) (m + 1)) :
    Keeps (Parser.elseClause (n + 1)) (Parser.elseClause (m + 1)) ElseClause.tokens cursor := by
  rw [Parser.elseClause, Parser.elseClause]
  refine (agree_bumpIf_of_ne_nil fueled.proper.pending_ne_nil_of_atKeyword).bind ?_
  rintro keyword next ⟨keywordReads, keywordTaken⟩
  cases keyword with
  | none => exact .pure keywordReads
  | some keyword =>
    have taken := keywordTaken rfl
    refine .ask (.ite (fun _ => .map ?_) fun _ => .map ?_)
    · exact (settled.ifStatement next (fueled.advance taken (by decide))).mono
        fun _ _ reads => (taken.then reads).toReads
    · exact (settled.codeBlock next (fueled.advance taken (by decide))).mono
        fun _ _ reads => (taken.then reads).toReads

theorem conditions_succ (settled : Settled n m) (fueled : cursor.Fueled 6 (n + 1) (m + 1)) :
    Keeps (Parser.conditions (n + 1)) (Parser.conditions (m + 1)) tokensOfConditions cursor := by
  rw [Parser.conditions, Parser.conditions]
  refine (settled.condition cursor (fueled.here (by decide))).bind ?_
  rintro build next ⟨tokens, reads, same⟩
  refine (agree_comma (reads.proper fueled.proper)).bind ?_
  rintro comma final ⟨commaReads, commaTaken⟩
  refine .join (fun later next => final.Reads (tokensOfConditions later) next) (fun isSome => ?_)
    (fun _ => .pure (.refl final)) ?_
  · exact settled.conditions final (fueled.advance ((commaTaken isSome).after reads) (by decide))
  · intro later next laterReads
    have all := (reads.trans commaReads).trans laterReads
    exact .pure (by rw [tokensOfConditions, same]; exact all)

theorem condition_succ (settled : Settled n m) (fueled : cursor.Fueled 5 (n + 1) (m + 1)) :
    Agree (Parser.condition (n + 1)) (Parser.condition (m + 1)) cursor fun build next =>
      ∃ tokens, cursor.Reads tokens next ∧
        ∀ comma, (build comma).tokens = tokens ++ Node.tokens comma := by
  rw [Parser.condition, Parser.condition]
  refine .ask (.ite (fun _ => ?_) fun _ => ?_)
  · refine (agree_bump cursor).bind ?_
    intro specifier next reads
    refine (agree_pattern next).bind ?_
    intro pattern next patternReads
    refine (agree_annotatedType next).bind ?_
    intro type next typeReads
    have reads := (reads.trans patternReads).trans typeReads
    refine (settled.clause next .head _ (reads.proper fueled.proper).pending_ne_nil_of_isOperator
      (fueled.lower reads (by decide))).bind ?_
    intro initializer last initializerReads
    exact .pure ⟨_, reads.trans initializerReads, fun comma => by simp [Condition.tokens]⟩
  · refine (settled.expr cursor .head (fueled.here (by decide))).bind ?_
    intro expr next reads
    exact .pure ⟨_, reads, fun _ => rfl⟩

theorem clause_succ (settled : Settled n m) (position : Position) (isMark : Cursor → Bool)
    (rest : isMark cursor = true → cursor.pending ≠ []) (fueled : cursor.Fueled 1 (n + 1) (m + 1)) :
    Keeps (Parser.clause? (n + 1) position isMark) (Parser.clause? (m + 1) position isMark)
      tokensOfClause? cursor := by
  rw [Parser.clause?, Parser.clause?]
  refine (agree_bumpIf_of_ne_nil rest).bind ?_
  rintro mark next ⟨markReads, markTaken⟩
  cases mark with
  | none => exact .pure markReads
  | some mark =>
    have taken := markTaken rfl
    refine (settled.expr next position (fueled.advance taken (by decide))).bind ?_
    intro value last valueReads
    exact .pure (taken.then valueReads).toReads

theorem catches_succ (settled : Settled n m) (fueled : cursor.Fueled 1 (n + 1) (m + 1)) :
    Keeps (Parser.catches (n + 1)) (Parser.catches (m + 1)) tokensOfCatches cursor := by
  rw [Parser.catches, Parser.catches]
  refine (agree_bumpIf_of_ne_nil fueled.proper.pending_ne_nil_of_atKeyword).bind ?_
  rintro keyword next ⟨keywordReads, keywordTaken⟩
  cases keyword with
  | none => exact .pure keywordReads
  | some keyword =>
    have taken := keywordTaken rfl
    refine (agree_run _ next).bind ?_
    intro pattern next patternReads
    have taken := taken.then patternReads
    refine (settled.codeBlock next (fueled.advance taken (by decide))).bind ?_
    intro body next bodyReads
    have taken := taken.then bodyReads
    refine (settled.catches next (fueled.advance taken (by decide))).bind ?_
    intro later last laterReads
    exact .pure (by
      simpa [tokensOfCatches, CatchClause.tokens] using (taken.then laterReads).toReads)

theorem caseStatements_succ (settled : Settled n m) (fueled : cursor.Fueled 10 (n + 1) (m + 1)) :
    Agree (Parser.caseStatements (n + 1)) (Parser.caseStatements (m + 1)) cursor fun nodes next =>
      cursor.Reads (tokensOfStatements nodes) next ∧
        ((cursor.atEnd || cursor.isAt .rightBrace || cursor.atCaseLabel) = false →
          cursor.Takes (tokensOfStatements nodes) next) := by
  rw [Parser.caseStatements, Parser.caseStatements]
  refine .ask (.ite (fun stop => .pure ⟨.refl cursor, fun more => ?_⟩) fun more => ?_)
  · -- A case that stops at once has read nothing, and was not asked to.
    rw [more] at stop
    cases stop
  refine (settled.statement cursor (fueled.here (by decide))).bind ?_
  rintro first next ⟨_, firstTaken⟩
  have taken := firstTaken (by intro none; simp [Cursor.atEnd, none] at more)
  refine (settled.caseStatements next (fueled.advance taken (by decide))).bind ?_
  rintro later last ⟨laterReads, _⟩
  have taken := taken.then laterReads
  exact .pure ⟨taken.toReads, fun _ => taken⟩

/-- A case reads its label or a statement. -/
theorem switchCases_succ (settled : Settled n m) (fueled : cursor.Fueled 11 (n + 1) (m + 1)) :
    Keeps (Parser.switchCases (n + 1)) (Parser.switchCases (m + 1)) tokensOfCases cursor := by
  rw [Parser.switchCases, Parser.switchCases]
  refine .ask (.ite (fun _ => .pure (.refl cursor)) fun more => ?_)
  have labelled : Agree (run fun cursor => if cursor.atCaseLabel then cursor.labelRun else 0)
      (run fun cursor => if cursor.atCaseLabel then cursor.labelRun else 0) cursor
      fun label next => cursor.Takes label next ∨ cursor.atCaseLabel = false ∧
        label = [] ∧ next = cursor := by
    cases isLabel : cursor.atCaseLabel with
    | true =>
      have pos := Cursor.pos_of_atCaseLabel fueled.proper isLabel
      exact (agree_run_of_pos pos.1 (by simpa [isLabel] using pos.2)).mono fun _ _ => .inl
    | false =>
      refine ⟨[], cursor, ?_, ?_, .inr ⟨rfl, rfl, rfl⟩⟩ <;> simp [run, isLabel, Cursor.take]
  refine labelled.bind ?_
  rintro label next (labelTaken | ⟨noLabel, rfl, rfl⟩)
  · -- The label was read, so the statements may be none.
    refine (settled.caseStatements next (fueled.advance labelTaken (by decide))).bind ?_
    rintro statements next ⟨statementsReads, _⟩
    have taken := labelTaken.then statementsReads
    refine (settled.switchCases next (fueled.advance taken (by decide))).bind ?_
    intro later last laterReads
    exact .pure (taken.then laterReads).toReads
  · -- No label stands here, so the first statement is what moves the cursor.
    refine (settled.caseStatements next (fueled.here (by decide))).bind ?_
    rintro statements last ⟨_, statementsTaken⟩
    have taken := statementsTaken (by simpa [noLabel] using more)
    refine (settled.switchCases last (fueled.advance taken (by decide))).bind ?_
    intro later last laterReads
    exact .pure (taken.then laterReads).toReads

theorem bindings_succ (settled : Settled n m) (fueled : cursor.Fueled 3 (n + 1) (m + 1)) :
    Keeps (Parser.bindings (n + 1)) (Parser.bindings (m + 1)) tokensOfBindings cursor := by
  rw [Parser.bindings, Parser.bindings]
  refine (agree_pattern cursor).bind ?_
  intro pattern next patternReads
  refine (agree_annotatedType next).bind ?_
  intro type next typeReads
  have reads := patternReads.trans typeReads
  refine (settled.clause next .free _ (reads.proper fueled.proper).pending_ne_nil_of_isOperator
    (fueled.lower reads (by decide))).bind ?_
  intro initializer next initializerReads
  have reads := reads.trans initializerReads
  refine (settled.optionalBlock next (fueled.lower reads (by decide))).bind ?_
  intro accessor next accessorReads
  have reads := reads.trans accessorReads
  refine (agree_comma (reads.proper fueled.proper)).bind ?_
  rintro comma final ⟨commaReads, commaTaken⟩
  refine .join (fun later next => final.Reads (tokensOfBindings later) next) (fun isSome => ?_)
    (fun _ => .pure (.refl final)) ?_
  · exact settled.bindings final (fueled.advance ((commaTaken isSome).after reads) (by decide))
  · intro later next laterReads
    exact .pure ((reads.trans commaReads).trans laterReads)

theorem decl_succ (settled : Settled n m) (fueled : cursor.Fueled 4 (n + 1) (m + 1)) :
    Keeps (Parser.decl (n + 1)) (Parser.decl (m + 1)) Decl.tokens cursor := by
  -- A body that may be left out follows a header.
  have withBody {header : List Token} {next : Cursor} (reads : cursor.Reads header next)
      (build : Option CodeBlock → Decl)
      (same : ∀ body, (build body).tokens = header ++ tokensOfBlock? body) :
      Agree (Parser.codeBlock? n >>= fun body => pure (build body))
        (Parser.codeBlock? m >>= fun body => pure (build body)) next
        fun decl last => cursor.Reads decl.tokens last := by
    refine (settled.optionalBlock next (fueled.lower reads (by decide))).bind ?_
    intro body last bodyReads
    exact .pure (same body ▸ reads.trans bodyReads)
  rw [Parser.decl, Parser.decl]
  refine (agree_attributes cursor).bind ?_
  intro attributes next attributesReads
  refine (agree_modifiers next).bind ?_
  intro modifiers next modifiersReads
  have before := attributesReads.trans modifiersReads
  have keyword := (agree_bump next).mono fun token _ reads => before.trans reads
  refine .ask (.ite (fun _ => ?_) fun _ => .ite (fun _ => ?_) fun _ => .ite (fun _ => ?_) fun _ =>
    .ite (fun _ => ?_) fun _ => .ite (fun _ => ?_) fun _ => .ite (fun _ => ?_) fun _ => ?_)
  · exact .map (agree_importDecl before)
  · -- The members of a type are never left out: a missing brace stands for them.
    refine (agree_typeHeader before).bind ?_
    intro header last headerReads
    refine (settled.codeBlock last (fueled.lower headerReads (by decide))).bind ?_
    intro members last membersReads
    exact .pure (headerReads.trans membersReads)
  · refine (agree_functionHeader before).bind ?_
    intro header last headerReads
    exact withBody headerReads _ fun _ => rfl
  · refine keyword.bind ?_
    intro keyword last keywordReads
    refine (settled.bindings last (fueled.lower keywordReads (by decide))).bind ?_
    intro bindings final bindingsReads
    exact .pure (keywordReads.trans bindingsReads)
  · refine (agree_initializerHeader before).bind ?_
    intro header last headerReads
    exact withBody headerReads _ fun _ => rfl
  · refine keyword.bind ?_
    intro keyword last keywordReads
    exact withBody keywordReads _ fun _ => rfl
  · exact .map (agree_rawDecl before)

/-! #### Kinds of statements -/

/-- What is left for the block of a statement. -/
theorem blockAfter {tokens : List Token} {next : Cursor} (settled : Settled n m)
    (fueled : cursor.Fueled 8 (n + 1) (m + 1)) (reads : cursor.Reads tokens next) :
    Keeps (Parser.codeBlock n) (Parser.codeBlock m) CodeBlock.tokens next :=
  settled.codeBlock next (fueled.lower reads (by decide))

/-- What is left for an expression of a statement. -/
theorem valueAfter {tokens : List Token} {next : Cursor} (settled : Settled n m)
    (fueled : cursor.Fueled 8 (n + 1) (m + 1)) (position : Position)
    (reads : cursor.Reads tokens next) :
    Keeps (Parser.expr n position) (Parser.expr m position) Expr.tokens next :=
  settled.expr next position (fueled.lower reads (by decide))

/-- Where the `else` is missing, a token without text stands for it. -/
theorem keeps_guardStatement (settled : Settled n m) (fueled : cursor.Fueled 8 (n + 1) (m + 1)) :
    Keeps (guardStatement (Parser.conditions n) (Parser.codeBlock n))
      (guardStatement (Parser.conditions m) (Parser.codeBlock m)) Item.tokens cursor := by
  refine (agree_bump cursor).bind ?_
  intro keyword next reads
  refine (settled.conditions next (fueled.lower reads (by decide))).bind ?_
  intro conditions next conditionsReads
  refine (agree_expectKeyword _ next).bind ?_
  intro elseKeyword next elseReads
  have reads := (reads.trans conditionsReads).trans elseReads
  refine (settled.blockAfter fueled reads).bind ?_
  intro body last bodyReads
  exact .pure (by simpa [Item.tokens] using reads.trans bodyReads)

theorem keeps_forLoop (settled : Settled n m) (fueled : cursor.Fueled 8 (n + 1) (m + 1)) :
    Keeps (forLoop (Parser.expr n .head) (Parser.clause? n .head (·.atKeyword "where"))
        (Parser.codeBlock n))
      (forLoop (Parser.expr m .head) (Parser.clause? m .head (·.atKeyword "where"))
        (Parser.codeBlock m)) Item.tokens cursor := by
  refine (agree_bump cursor).bind ?_
  intro keyword next reads
  refine (agree_run _ next).bind ?_
  intro modifiers next modifiersReads
  refine (agree_pattern next).bind ?_
  intro pattern next patternReads
  refine (agree_annotatedType next).bind ?_
  intro type next typeReads
  refine (agree_expectKeyword _ next).bind ?_
  intro inKeyword next inReads
  have reads := (((reads.trans modifiersReads).trans patternReads).trans typeReads).trans inReads
  refine (settled.valueAfter fueled .head reads).bind ?_
  intro sequence next sequenceReads
  have reads := reads.trans sequenceReads
  refine (settled.clause next .head _ (reads.proper fueled.proper).pending_ne_nil_of_atKeyword
    (fueled.lower reads (by decide))).bind ?_
  intro filter next filterReads
  have reads := reads.trans filterReads
  refine (settled.blockAfter fueled reads).bind ?_
  intro body last bodyReads
  exact .pure (by simpa [Item.tokens] using reads.trans bodyReads)

theorem keeps_whileLoop (settled : Settled n m) (fueled : cursor.Fueled 8 (n + 1) (m + 1)) :
    Keeps (whileLoop (Parser.conditions n) (Parser.codeBlock n))
      (whileLoop (Parser.conditions m) (Parser.codeBlock m)) Item.tokens cursor := by
  refine (agree_bump cursor).bind ?_
  intro keyword next reads
  refine (settled.conditions next (fueled.lower reads (by decide))).bind ?_
  intro conditions next conditionsReads
  have reads := reads.trans conditionsReads
  refine (settled.blockAfter fueled reads).bind ?_
  intro body last bodyReads
  exact .pure (reads.trans bodyReads)

/-- The condition of a `repeat` is read only where the `while` is there. -/
theorem keeps_repeatLoop (settled : Settled n m) (fueled : cursor.Fueled 8 (n + 1) (m + 1)) :
    Keeps (repeatLoop (Parser.codeBlock n) (Parser.expr n .head))
      (repeatLoop (Parser.codeBlock m) (Parser.expr m .head)) Item.tokens cursor := by
  refine (agree_bump cursor).bind ?_
  intro keyword next reads
  refine (settled.blockAfter fueled reads).bind ?_
  intro body next bodyReads
  refine (agree_expectKeyword _ next).bind ?_
  intro whileKeyword final whileReads
  have reads := (reads.trans bodyReads).trans whileReads
  refine .join (fun condition last => final.Reads condition.tokens last)
    (fun _ => .pure (.refl final)) (fun _ => settled.valueAfter fueled .head reads) ?_
  intro condition last conditionReads
  exact .pure (by simpa [Item.tokens] using reads.trans conditionReads)

theorem keeps_doStatement (settled : Settled n m) (fueled : cursor.Fueled 8 (n + 1) (m + 1)) :
    Keeps (doStatement (Parser.codeBlock n) (Parser.catches n))
      (doStatement (Parser.codeBlock m) (Parser.catches m)) Item.tokens cursor := by
  refine (agree_bump cursor).bind ?_
  intro keyword next reads
  refine (agree_bumpIf _ next).bind ?_
  intro word next wordReads
  refine (agree_run _ next).bind ?_
  intro type next typeReads
  have reads := (reads.trans wordReads).trans typeReads
  refine (settled.blockAfter fueled reads).bind ?_
  intro body next bodyReads
  have reads := reads.trans bodyReads
  refine (settled.catches next (fueled.lower reads (by decide))).bind ?_
  intro catches last catchesReads
  have same : word.toList = Node.tokens word := by cases word <;> rfl
  exact .pure (by simpa [Item.tokens, same] using reads.trans catchesReads)

/-- The cases of a `switch` have a higher rank, so they are paid by the brace before them. -/
theorem keeps_switchStatement (settled : Settled n m) (fueled : cursor.Fueled 8 (n + 1) (m + 1)) :
    Keeps (switchStatement (Parser.expr n .head) (Parser.switchCases n))
      (switchStatement (Parser.expr m .head) (Parser.switchCases m)) Item.tokens cursor := by
  refine (agree_bump cursor).bind ?_
  intro keyword next reads
  refine (settled.valueAfter fueled .head reads).bind ?_
  intro subject next subjectReads
  have reads := reads.trans subjectReads
  have proper := reads.proper fueled.proper
  refine (agree_bumpIf_of_ne_nil
    fun brace => proper.pending_ne_nil_of_isAt brace (by decide)).bind ?_
  rintro brace next ⟨braceReads, braceTaken⟩
  cases brace with
  | none => exact .pure ((reads.trans braceReads).of_atoms (by simp [Item.tokens, tokensOfCases]))
  | some leftBrace =>
    have taken := (braceTaken rfl).after reads
    refine (settled.switchCases next (fueled.advance taken (by decide))).bind ?_
    intro cases next casesReads
    refine (agree_expect _ next).bind ?_
    intro rightBrace last closerReads
    have taken := (taken.then casesReads).then closerReads
    exact .pure (by simpa [Item.tokens] using taken.toReads)

theorem keeps_deferStatement (settled : Settled n m) (fueled : cursor.Fueled 8 (n + 1) (m + 1)) :
    Keeps (deferStatement (Parser.codeBlock n)) (deferStatement (Parser.codeBlock m)) Item.tokens
      cursor := by
  refine (agree_bump cursor).bind ?_
  intro keyword next reads
  refine (settled.blockAfter fueled reads).bind ?_
  intro body last bodyReads
  exact .pure (reads.trans bodyReads)

/-- An empty value of a `return` is dropped, which loses no token. -/
theorem keeps_returnStatement (settled : Settled n m) (fueled : cursor.Fueled 8 (n + 1) (m + 1)) :
    Keeps (returnStatement (Parser.expr n .free)) (returnStatement (Parser.expr m .free))
      Item.tokens cursor := by
  refine (agree_bump cursor).bind ?_
  intro keyword next reads
  refine .ask (.ite (fun _ => .pure reads) fun _ => ?_)
  refine (settled.valueAfter fueled .free reads).bind ?_
  intro value last valueReads
  have reads := reads.trans valueReads
  cases isEmpty : value.isEmpty with
  | true =>
    rw [Expr.tokens_of_isEmpty isEmpty] at reads
    exact .pure reads
  | false => exact .pure reads

theorem keeps_throwStatement (settled : Settled n m) (fueled : cursor.Fueled 8 (n + 1) (m + 1)) :
    Keeps (throwStatement (Parser.expr n .free)) (throwStatement (Parser.expr m .free)) Item.tokens
      cursor := by
  refine (agree_bump cursor).bind ?_
  intro keyword next reads
  refine (settled.valueAfter fueled .free reads).bind ?_
  intro value last valueReads
  exact .pure (reads.trans valueReads)

theorem keeps_jump (cursor : Cursor) : Keeps jump jump Item.tokens cursor := by
  refine (agree_bump cursor).bind ?_
  intro keyword next reads
  refine (agree_bumpIf _ next).bind ?_
  intro target last targetReads
  have same : target.toList = Node.tokens target := by cases target <;> rfl
  exact .pure (by simpa [Item.tokens, same] using reads.trans targetReads)

theorem item_succ (settled : Settled n m) (fueled : cursor.Fueled 8 (n + 1) (m + 1)) :
    Keeps (Parser.item (n + 1)) (Parser.item (m + 1)) Item.tokens cursor := by
  have expression : Keeps (Item.expr <$> Parser.expr n .free) (Item.expr <$> Parser.expr m .free)
      Item.tokens cursor :=
    .map (settled.expr cursor .free (fueled.here (by decide)))
  rw [Parser.item, Parser.item]
  refine .get (.ite (fun _ => .map (agree_run _ cursor)) fun _ =>
    .ite (fun _ => .map (agree_run _ cursor)) fun _ => .ite (fun _ => ?_) fun _ =>
    .ite (fun _ => ?_) fun _ => expression)
  · exact .map (settled.decl cursor (fueled.here (by decide)))
  -- From here on the word decides, one case for each keyword that begins a statement.
  generalize cursor.peek.text = word
  split
  · exact .map (settled.ifStatement cursor (fueled.here (by decide)))
  · exact settled.keeps_guardStatement fueled
  · exact settled.keeps_forLoop fueled
  · exact settled.keeps_whileLoop fueled
  · exact settled.keeps_repeatLoop fueled
  · exact settled.keeps_doStatement fueled
  · exact settled.keeps_switchStatement fueled
  · exact settled.keeps_deferStatement fueled
  · exact settled.keeps_returnStatement fueled
  · exact settled.keeps_throwStatement fueled
  · exact keeps_jump cursor
  · exact keeps_jump cursor
  · exact .map (agree_run _ cursor)
  · exact expression

end Settled

/-! ### The induction on the fuel -/

/-- Without fuel no rank is served. -/
theorem Cursor.Fueled.ne_zero {cursor : Cursor} {rank n m : Nat} (pos : 0 < rank)
    (fueled : cursor.Fueled rank n m) : n ≠ 0 ∧ m ≠ 0 := by
  obtain ⟨-, first, second⟩ := fueled
  omega

theorem Settled.of_eq_zero {n m : Nat} (none : n = 0 ∨ m = 0) : Settled n m := by
  constructor
  all_goals intros
  all_goals rename_i fueled
  all_goals have some := fueled.ne_zero (by decide)
  all_goals omega

/-- With enough fuel every function of the grammar has settled. -/
theorem settled (n m : Nat) : Settled n m := by
  -- Both amounts of fuel go down together, and a call never needs more than one unit less.
  induction n generalizing m with
  | zero => exact .of_eq_zero (.inl rfl)
  | succ n ih =>
    cases m with
    | zero => exact .of_eq_zero (.inr rfl)
    | succ m =>
      have settled := ih m
      exact {
        statements := fun _ => settled.statements_succ
        statement := fun _ => settled.statement_succ
        item := fun _ => settled.item_succ
        codeBlock := fun _ => settled.codeBlock_succ
        optionalBlock := fun _ => settled.optionalBlock_succ
        ifStatement := fun _ => settled.ifStatement_succ
        elseClause := fun _ => settled.elseClause_succ
        conditions := fun _ => settled.conditions_succ
        condition := fun _ => settled.condition_succ
        clause := fun _ => settled.clause_succ
        catches := fun _ => settled.catches_succ
        switchCases := fun _ => settled.switchCases_succ
        caseStatements := fun _ => settled.caseStatements_succ
        decl := fun _ => settled.decl_succ
        bindings := fun _ => settled.bindings_succ
        expr := fun _ => settled.expr_succ
        terms := fun _ => settled.terms_succ
        unary := fun _ => settled.unary_succ
        primary := fun _ => settled.primary_succ
        suffixes := fun _ _ => settled.suffixes_succ
        argumentList := fun _ => settled.argumentList_succ
        arguments := fun _ => settled.arguments_succ
        collection := fun _ => settled.collection_succ
        elements := fun _ => settled.elements_succ
        closure := fun _ => settled.closure_succ }

namespace Parser

/-- The statements of a file hold all its tokens. -/
theorem agree_fileStatements {n m : Nat} {cursor : Cursor} (fueled : cursor.Fueled 10 n m) :
    Agree (fileStatements n) (fileStatements m) cursor fun nodes next =>
      cursor.Reads (tokensOfStatements nodes) next ∧ next.pending = [] := by
  induction n generalizing m cursor with
  | zero => exact absurd rfl (fueled.ne_zero (by decide)).1
  | succ n ih =>
    cases m with
    | zero => exact absurd rfl (fueled.ne_zero (by decide)).2
    | succ m =>
      refine .ask (.ite (fun done => ?_) fun more => ?_)
      · exact .pure ⟨.refl cursor, List.isEmpty_iff.1 done⟩
      have rest : cursor.pending ≠ [] := by
        intro none
        simp [Cursor.atEnd, none] at more
      -- A closing brace without an opening one is a statement of its own at the top of a file.
      refine .ask (.join (fun node next => cursor.Takes node.tokens next) (fun _ => ?_)
        (fun _ => ?_) ?_)
      · exact .map (agree_bump_of_ne_nil rest)
      · exact ((settled n m).statement cursor (fueled.here (by decide))).mono
          fun _ _ reads => reads.2 rest
      · intro first next taken
        refine (ih (fueled.advance taken (by decide))).bind ?_
        rintro later last ⟨laterReads, done⟩
        exact .pure ⟨(taken.then laterReads).toReads, done⟩

end Parser

end SuiteMigration
