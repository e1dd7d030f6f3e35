import SuiteMigration.Proofs.Reading.Header

/-!
# When reading has settled

Every function of the grammar has a rank below the fuel that one token is worth. A call either goes
to a function of lower rank or comes after a token has been read, so fuel for the tokens that are
left and for the rank of a function is enough, and from there on the answer no longer changes.

This module says what that means for each function, and proves it for the small ones that call no
other.

## Main definitions

* `Cursor.Fueled` - two amounts of fuel suffice for a function of the given rank at the cursor
* `Settled` - what every function of the grammar does with enough fuel

## Main results

* `Cursor.Fueled.lower`, `Cursor.Fueled.advance` - the fuel that is left for a call
* `Parser.agree_binaryOperator` - an operator between operands is read with the mark of a cast
-/

namespace SuiteMigration

/-! ### Fuel -/

/-- Two amounts of fuel suffice for a function of the given rank: a token is worth 24 units. -/
structure Cursor.Fueled (cursor : Cursor) (rank n m : Nat) : Prop where
  proper : cursor.Proper
  first : 24 * cursor.left + rank ≤ n
  second : 24 * cursor.left + rank ≤ m

namespace Cursor.Fueled

variable {cursor next : Cursor} {rank target n m : Nat} {tokens : List Token}

/-- What is left for a function of lower rank. -/
theorem lower (fueled : cursor.Fueled rank (n + 1) (m + 1)) (reads : cursor.Reads tokens next)
    (less : target < rank) : next.Fueled target n m := by
  have fewer := reads.left_le
  obtain ⟨proper, first, second⟩ := fueled
  exact ⟨reads.proper proper, by omega, by omega⟩

/-- What is left once a token has been read. -/
theorem advance (fueled : cursor.Fueled rank (n + 1) (m + 1)) (takes : cursor.Takes tokens next)
    (less : target < rank + 24) : next.Fueled target n m := by
  have fewer := takes.fewer
  obtain ⟨proper, first, second⟩ := fueled
  exact ⟨takes.proper proper, by omega, by omega⟩

/-- What is left for a function of lower rank before anything is read. -/
theorem here (fueled : cursor.Fueled rank (n + 1) (m + 1))
    (less : target < rank) : cursor.Fueled target n m :=
  fueled.lower (.refl cursor) less

end Cursor.Fueled

namespace Parser

/-- Both computations give the same node, and its tokens are those that were read. -/
abbrev Keeps (p q : Parser α) (view : α → List Token) (cursor : Cursor) : Prop :=
  Agree p q cursor fun node next => cursor.Reads (view node) next

end Parser

/-- What every function of the grammar does with either amount of fuel, if that suffices for its
rank: the answers are the same, and the tokens of the answer are those that were read. Functions on
which a loop relies also say when they read a token. -/
structure Settled (n m : Nat) : Prop where
  statements : ∀ cursor : Cursor, cursor.Fueled 10 n m →
    Parser.Keeps (.statements n) (.statements m) tokensOfStatements cursor
  statement : ∀ cursor : Cursor, cursor.Fueled 9 n m →
    Parser.Agree (.statement n) (.statement m) cursor fun node next =>
      cursor.Reads node.tokens next ∧ (cursor.pending ≠ [] → cursor.Takes node.tokens next)
  item : ∀ cursor : Cursor, cursor.Fueled 8 n m →
    Parser.Keeps (.item n) (.item m) Item.tokens cursor
  codeBlock : ∀ cursor : Cursor, cursor.Fueled 1 n m →
    Parser.Keeps (.codeBlock n) (.codeBlock m) CodeBlock.tokens cursor
  optionalBlock : ∀ cursor : Cursor, cursor.Fueled 2 n m →
    Parser.Keeps (.codeBlock? n) (.codeBlock? m) tokensOfBlock? cursor
  ifStatement : ∀ cursor : Cursor, cursor.Fueled 7 n m →
    Parser.Keeps (.ifStatement n) (.ifStatement m) IfStatement.tokens cursor
  elseClause : ∀ cursor : Cursor, cursor.Fueled 1 n m →
    Parser.Keeps (.elseClause n) (.elseClause m) ElseClause.tokens cursor
  conditions : ∀ cursor : Cursor, cursor.Fueled 6 n m →
    Parser.Keeps (.conditions n) (.conditions m) tokensOfConditions cursor
  condition : ∀ cursor : Cursor, cursor.Fueled 5 n m →
    Parser.Agree (.condition n) (.condition m) cursor fun build next =>
      ∃ tokens, cursor.Reads tokens next ∧
        ∀ comma, (build comma).tokens = tokens ++ Node.tokens comma
  clause : ∀ (cursor : Cursor) (position : Position) (isMark : Cursor → Bool),
    (isMark cursor = true → cursor.pending ≠ []) → cursor.Fueled 1 n m →
    Parser.Keeps (.clause? n position isMark) (.clause? m position isMark) tokensOfClause? cursor
  catches : ∀ cursor : Cursor, cursor.Fueled 1 n m →
    Parser.Keeps (.catches n) (.catches m) tokensOfCatches cursor
  switchCases : ∀ cursor : Cursor, cursor.Fueled 11 n m →
    Parser.Keeps (.switchCases n) (.switchCases m) tokensOfCases cursor
  caseStatements : ∀ cursor : Cursor, cursor.Fueled 10 n m →
    Parser.Agree (.caseStatements n) (.caseStatements m) cursor fun nodes next =>
      cursor.Reads (tokensOfStatements nodes) next ∧
        ((cursor.atEnd || cursor.isAt .rightBrace || cursor.atCaseLabel) = false →
          cursor.Takes (tokensOfStatements nodes) next)
  decl : ∀ cursor : Cursor, cursor.Fueled 4 n m →
    Parser.Keeps (.decl n) (.decl m) Decl.tokens cursor
  bindings : ∀ cursor : Cursor, cursor.Fueled 3 n m →
    Parser.Keeps (.bindings n) (.bindings m) tokensOfBindings cursor
  expr : ∀ (cursor : Cursor) (position : Position), cursor.Fueled 4 n m →
    Parser.Keeps (.expr n position) (.expr m position) Expr.tokens cursor
  terms : ∀ (cursor : Cursor) (position : Position) (ternaries : Nat), cursor.Fueled 1 n m →
    Parser.Keeps (.terms n position ternaries) (.terms m position ternaries) tokensOfTerms cursor
  unary : ∀ (cursor : Cursor) (position : Position), cursor.Fueled 3 n m →
    Parser.Agree (.unary n position) (.unary m position) cursor fun node next =>
      cursor.Reads node.tokens next ∧ (node.isEmpty = false → cursor.Takes node.tokens next)
  primary : ∀ (cursor : Cursor) (position : Position), cursor.Fueled 2 n m →
    Parser.Agree (.primary n position) (.primary m position) cursor fun node next =>
      cursor.Reads node.tokens next ∧ (node.isEmpty = false → cursor.Takes node.tokens next)
  suffixes : ∀ (start cursor : Cursor) (position : Position) (base : Expr),
    start.Reads base.tokens cursor → cursor.Fueled 2 n m →
    Parser.Agree (.suffixes n position base) (.suffixes m position base) cursor fun node next =>
      start.Reads node.tokens next ∧ next.left ≤ cursor.left
  argumentList : ∀ (cursor : Cursor) (closer : TokenKind), cursor.pending ≠ [] →
    cursor.Fueled 1 n m →
    Parser.Agree (.argumentList n closer) (.argumentList m closer) cursor fun node next =>
      cursor.Takes node.tokens next
  arguments : ∀ (cursor : Cursor) (closer : TokenKind), cursor.Fueled 5 n m →
    Parser.Keeps (.arguments n closer) (.arguments m closer) tokensOfArguments cursor
  collection : ∀ cursor : Cursor, cursor.pending ≠ [] → cursor.Fueled 1 n m →
    Parser.Agree (.collection n) (.collection m) cursor fun node next =>
      cursor.Takes node.tokens next
  elements : ∀ cursor : Cursor, cursor.Fueled 5 n m →
    Parser.Keeps (.elements n) (.elements m) tokensOfElements cursor
  closure : ∀ cursor : Cursor, cursor.pending ≠ [] → cursor.Fueled 1 n m →
    Parser.Agree (.closure n) (.closure m) cursor fun node next =>
      cursor.Takes node.tokens next

namespace Parser

/-! ### Functions that call no other -/

/-- The word of a cast takes a mark that follows it directly into its own token. -/
theorem agree_castOperator {cursor : Cursor} (proper : cursor.Proper)
    (keyword : cursor.atKeyword "is" = true ∨ cursor.atKeyword "as" = true) :
    Agree castOperator castOperator cursor fun token next => cursor.Takes [token] next := by
  have rest : cursor.pending ≠ [] :=
    keyword.elim proper.pending_ne_nil_of_atKeyword proper.pending_ne_nil_of_atKeyword
  obtain ⟨word, later, pending⟩ := List.exists_cons_of_ne_nil rest
  have kind : word.kind = .identifier := by
    simp only [Cursor.atKeyword, Cursor.peek, pending, List.headD_cons, Token.isKeyword,
      Bool.and_eq_true, beq_iff_eq] at keyword
    exact keyword.elim And.left And.left
  have bumped : cursor.bump = (word, ⟨some word, later, cursor.endOfFile⟩) := by
    rw [Cursor.bump, pending]
  have wordTaken := Cursor.takes_bump rest
  rw [bumped] at wordTaken
  refine .of_apply (congrArg some bumped) (congrArg some bumped) ?_
  refine .ite (fun isAs => ?_) fun _ => .pure wordTaken
  -- The mark is looked at after the word, so whether they touch is seen from the next cursor.
  generalize following : (⟨some word, later, cursor.endOfFile⟩ : Cursor) = next at wordTaken ⊢
  cases marked : next.peek.isOptionalMark && next.atAdjacent with
  | false =>
    have answer : optionalMark next = some (none, next) := bumpIf_of_not marked
    exact .of_apply answer answer (.pure wordTaken)
  | true =>
    have answer : optionalMark next = some (some next.bump.1, next.bump.2) := bumpIf_of marked
    refine .of_apply answer answer (.pure ?_)
    have markReads := next.reads_bump
    rw [Bool.and_eq_true] at marked
    have bump : next.bump.1 = next.peek :=
      Cursor.bump_fst ((wordTaken.proper proper).pending_ne_nil_of_isOptionalMark marked.1)
    rw [bump] at markReads ⊢
    -- No trivia stands between the two, so their texts can be joined without losing any.
    have tight : next.peek.leading = "" ∧ word.trailing = "" := by
      simpa [← following, Cursor.atAdjacent, adjacent] using marked.2
    have fused := Token.atoms_fused kind (beq_iff_eq.1 isAs) marked.1 tight.2 tight.1
    have taken := wordTaken.then markReads
    exact ⟨taken.of_atoms (by simpa using fused), taken.fewer⟩

theorem agree_binaryOperator {cursor : Cursor} (proper : cursor.Proper) (ternaries : Nat) :
    Agree (binaryOperator? ternaries) (binaryOperator? ternaries) cursor fun operator next =>
      operator = none ∧ next = cursor ∨
        ∃ token, operator = some token ∧ cursor.Takes [token] next := by
  refine .get (.ite (fun operator => ?_) fun _ => .ite (fun keyword => ?_) fun _ => ?_)
  · have rest : cursor.pending ≠ [] := by
      simp only [Cursor.atOperator, Bool.or_eq_true, Bool.and_eq_true] at operator
      obtain ⟨isOperator, -⟩ | ⟨isColon, -⟩ := operator
      · exact proper.pending_ne_nil_of_isAt isOperator (by decide)
      · exact proper.pending_ne_nil_of_isAt isColon (by decide)
    exact .map ((agree_bump_of_ne_nil rest).mono fun token _ taken => .inr ⟨token, rfl, taken⟩)
  · rw [Bool.or_eq_true] at keyword
    exact .map ((agree_castOperator proper keyword).mono fun token _ taken =>
      .inr ⟨token, rfl, taken⟩)
  · exact .pure (.inl ⟨rfl, rfl⟩)

/-- What is left of an argument joins its value. -/
theorem agree_absorbStray {start cursor : Cursor} {value : Expr}
    (before : start.Reads value.tokens cursor) (closer : TokenKind) :
    Agree (absorbStray value closer) (absorbStray value closer) cursor fun node next =>
      start.Reads node.tokens next := by
  refine .ask (.ite (fun _ => .pure before) fun _ => ?_)
  refine (agree_run _ cursor).bind fun stray _ strayReads => ?_
  exact .pure (before.trans strayReads)

theorem agree_label (cursor : Cursor) :
    Keeps label? label? Node.tokens cursor := by
  refine .ask (.ite (fun _ => ?_) fun _ => .pure (.refl cursor))
  refine (agree_bump cursor).bind fun name _ nameReads => ?_
  refine (agree_bump _).bind fun colon _ colonReads => ?_
  exact .pure (nameReads.trans colonReads)

theorem agree_closureSignature (cursor : Cursor) :
    Keeps closureSignature? closureSignature? Node.tokens cursor := by
  refine .ask ?_
  cases cursor.signatureLength? with
  | none => exact .pure (.refl cursor)
  | some length =>
    refine (agree_run _ cursor).bind fun tokens _ tokensReads => ?_
    refine (agree_bump _).bind fun keyword _ keywordReads => ?_
    exact .pure (tokensReads.trans keywordReads)

end Parser

end SuiteMigration
