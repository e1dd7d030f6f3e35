import Mathlib.Tactic.Common
import SuiteMigration.Proofs.Expectation.Rereading

/-!
# Comparisons read again

An assertion about two operands becomes an expectation of one comparison, and the text of the
comparison is read again. Its words are those of the operands, in parentheses or not, with the
operator between them: there are blanks around the operator, so it runs into neither operand. The
operators at the top are those of the operands that have no parentheses, with the operator of the
comparison between them. Such an operand should have no operator that binds as loosely as a comparison.
A plain assignment is missed there, and so is what stands behind a mark on the left.

## Main definitions

* `bindsNoTighter` - the operators that bind no tighter than a comparison
* `Expr.StopsBefore` - an operand that does not take up the operator behind it

## Main results

* `operators_combined` - the operators at the top of a comparison, read again
* `comparison_groups_iff` - when the one of the comparison is the only loose one among them
* `comparison_regroups` - an operand that assigns is not put in parentheses
-/

namespace SuiteMigration

open Lexeme

/-! ### The words of a comparison -/

/-- The operator that a condition is built with. -/
def Synthesis.operator? : Synthesis → Option String
  | .compare operator | .nilCheck operator => some operator
  | .negate | .none => Option.none

/-- What holds of the operators of all rules holds of the one that a rule has. -/
theorem of_operator? {name operator : String} {rule : AssertionRule} {p : String → Bool}
    (all : (assertionRules.all fun entry => entry.2.synthesis.operator?.all p) = true)
    (found : assertionRule? name = some rule) (isOperator : rule.synthesis.operator? = some operator) :
    p operator = true := by
  obtain ⟨before, after, split, -⟩ := List.lookup_eq_some_iff.1 found
  have listed : (name, rule) ∈ assertionRules := by
    rw [split]
    exact List.mem_append_right _ List.mem_cons_self
  have holds := List.all_eq_true.1 all (name, rule) listed
  rwa [isOperator, Option.all_some] at holds

/-- Conditions are built with signs only. -/
theorem signs_of_operator? {name operator : String} {rule : AssertionRule}
    (found : assertionRule? name = some rule) (isOperator : rule.synthesis.operator? = some operator) :
    operator.toList ≠ [] ∧ ∀ c ∈ operator.toList, c ∈ signCharacters := by
  have holds := of_operator? (p := fun operator => !operator.toList.isEmpty &&
    operator.toList.all (signCharacters.contains ·)) (by decide) found isOperator
  rw [Bool.and_eq_true, Bool.not_eq_true', List.isEmpty_eq_false_iff] at holds
  exact ⟨holds.1, fun c member => List.contains_iff_mem.1 (List.all_eq_true.1 holds.2 c member)⟩

section Comparison

variable {operator : String} {tokens : List Token} {rest : List Char}

/-- The operator of a comparison, with the blanks around it. -/
def spacedOperator (operator : String) : Token :=
  ((Token.ofOperator operator).withLeading .space).withTrailing .space

theorem tokens_combined (left right : Expr) (operator : String) :
    (combined left operator right).tokens =
      (Node.setTrailing (left.wrapped left.bindsLoosely) "").tokens ++
        spacedOperator operator ::
          (Node.setLeading (right.wrapped (right.bindsLoosely || right.isMarked)) "").tokens := by
  simp [combined, Expr.tokens, tokensOfOperands, Node.tokens, spacedOperator, Expr.wrapped]

theorem atoms_spacedOperator (nonempty : operator.toList ≠ []) :
    (spacedOperator operator).atoms = [spacedOperator operator] := by
  have word : operator ≠ "" := by simpa using nonempty
  exact Token.atoms_of_text word fun fused => absurd fused.1 TokenKind.noConfusion

theorem isGap_space (old : List Char) : IsGap old Trivia.space.toList :=
  .space rfl .nil

/-- An operator between blanks can be put in front of an operand. -/
theorem Operand.consOperator (operand : Operand tokens rest) (nonempty : operator.toList ≠ [])
    (signs : ∀ c ∈ operator.toList, c ∈ signCharacters) :
    Operand (spacedOperator operator :: tokens) rest := by
  have word : operator ≠ "" := by simpa using nonempty
  have whole : Piece.isLone operator.toList = false := by
    have single : ∀ c ∈ signCharacters, (c != '#' && c != '\x60') = true :=
      List.all_eq_true.1 (by decide)
    simp only [Bool.and_eq_true, bne_iff_ne] at single
    obtain ⟨c, later, text_eq⟩ := List.exists_cons_of_ne_nil nonempty
    have other := single c (signs c (by simp [text_eq]))
    rw [text_eq]
    simp [Piece.isLone, other]
  refine operand.cons (atoms_spacedOperator nonempty) word whole
    ⟨isGap_space _, fun _ => ?_, isGap_space _⟩
  have stops (later : List Char) : Lexeme.operator (Trivia.space.toList ++ later) = 0 := by
    simp [Trivia.space, operator_cons_eq_zero_iff, isOperatorChar]
  exact (Piece.leads_signs_iff nonempty signs).2 (stops _)

/-- Two operands with an operator between them are one. -/
theorem Operand.combined {left right : Expr} {afterLeft afterRight : List Char}
    (leftOperand : Operand left.tokens afterLeft) (someAfterLeft : afterLeft ≠ [])
    (rightOperand : Operand right.tokens afterRight) (someAfterRight : afterRight ≠ [])
    (nonempty : operator.toList ≠ []) (signs : ∀ c ∈ operator.toList, c ∈ signCharacters)
    (apart : StandApart (Token.atomsOf (combined left operator right).tokens) []) :
    Operand (combined left operator right).tokens [] := by
  rw [tokens_combined, Token.atomsOf_append, standApart_append, Token.renderAll_atomsOf,
    Token.atomsOf_cons, atoms_spacedOperator nonempty] at apart
  obtain ⟨leftApart, -, rightApart⟩ := apart
  have behind := (rightOperand.behind someAfterRight _ rightApart).consOperator nonempty signs
  have blank (tokens : List Token) :
      Halts ((Token.renderAll (spacedOperator operator :: tokens)).toList ++ []) := by
    rw [toList_renderAll_cons, List.append_assoc]
    exact (isGap_space []).halts (by decide) _
  have ahead := leftOperand.ahead someAfterLeft _ (blank _) leftApart
  rw [tokens_combined]
  exact ahead.append behind

end Comparison

/-! ### The words of a comparison, read again -/

section Argument

variable {operator : String} {left right : Expr}

/-- The words of a comparison are those of its left operand, the operator with blanks around it, and
those of its right operand. -/
theorem exists_of_spelling_combined {tokens' : List Token} (nonempty : operator.toList ≠ [])
    (words' : Whole tokens') (operand : Operand (combined left operator right).tokens [])
    (same : spelling [] tokens' =
      spelling [] (Token.atomsOf (combined left operator right).tokens)) :
    ∃ front sign back, tokens' = front ++ sign :: back ∧ sign.kind = .operator ∧
      sign.text = operator ∧ (∀ token, front.getLast? = some token → adjacent (some token) sign = false) ∧
      spelling [] front =
        spelling [] (Token.atomsOf (Node.setTrailing (left.wrapped left.bindsLoosely) "").tokens) ∧
      spelling sign.trailing.toList back = spelling Trivia.space.toList (Token.atomsOf
        (Node.setLeading (right.wrapped (right.bindsLoosely || right.isMarked)) "").tokens) := by
  have words := operand.words
  rw [tokens_combined, Token.atomsOf_append, Token.atomsOf_cons, atoms_spacedOperator nonempty,
    List.singleton_append] at words same
  rw [Whole, List.forall_mem_append, List.forall_mem_cons] at words
  obtain ⟨front, behind, rfl, frontSpelled, behindSpelled⟩ :=
    exists_of_spelling_append words.1 words' same
  rw [Whole, List.forall_mem_append] at words'
  obtain ⟨sign, back, rfl, like, gaps, backSpelled⟩ :=
    exists_of_spelling_cons words.2.1 words'.2 behindSpelled
  refine ⟨front, sign, back, rfl, like.kind.symm, like.text.symm, fun token isLast => ?_,
    frontSpelled, backSpelled⟩
  rw [gapAfter_of_getLast? words'.1 isLast] at gaps
  rw [adjacent_eq_false_iff, ← gaps]
  exact List.append_ne_nil_of_right_ne_nil _ (show Trivia.space.toList ≠ [] by decide)

/-- The left operand stops in front of the operator: its last word begins no declaration with it, and
generic brackets in it are not taken up by the operator. -/
structure Expr.StopsBefore (expr : Expr) (operator : String) : Prop where
  word : ∀ token ∈ (Token.atomsOf expr.tokens).getLast?, token.text ∉ ["init", "operator"]
  angles : operator = "<" ∨ operator = ">" → closesAngles (Token.atomsOf expr.tokens) = true

variable {source name : String} {first last first' last' : Nat} {rule : AssertionRule}
  (leftArgument : left.IsArgumentAt source first last)
  (rightArgument : right.IsArgumentAt source first' last')
  (given : Node.render (SourceFile.parse source) = source)
  (lone : ∀ token ∈ (tokenize source).tokens, Piece.isLone token.text.toList = false)
  (found : assertionRule? name = some rule) (isOperator : rule.synthesis.operator? = some operator)
  (stops : left.StopsBefore operator)
  (apart : StandApart (Token.atomsOf (combined left operator right).tokens) [])

include leftArgument rightArgument given lone found isOperator stops apart

/-- The operators of a comparison that is read again: those of its left operand, the operator of the
comparison, and those of its right operand. There are none in parentheses. An operand on the left that
ends in a marked one takes the operator with what is behind it. -/
theorem operators_combined : (Expr.parse (Node.render (combined left operator right))).operators =
    (left.wrapped left.bindsLoosely).operators ++
      if (left.wrapped left.bindsLoosely).leavesRoom then
        operator :: (right.wrapped (right.bindsLoosely || right.isMarked)).operators else [] := by
  obtain ⟨nonempty, signs⟩ := signs_of_operator? found isOperator
  obtain ⟨afterLeft, someAfterLeft, leftOperand⟩ := leftArgument.operand given lone
  obtain ⟨afterRight, someAfterRight, rightOperand⟩ := rightArgument.operand given lone
  have operand := leftOperand.combined someAfterLeft rightOperand someAfterRight nonempty signs apart
  obtain ⟨text, text_eq⟩ : ∃ text, text = Node.render (combined left operator right) := ⟨_, rfl⟩
  have spelled : spelling [] (tokenize text).tokens =
      spelling [] (Token.atomsOf (combined left operator right).tokens) := text_eq ▸ operand.spelling
  -- The text is spelled as the operands with the sign between them, so its tokens split there.
  obtain ⟨front, sign, back, tokens', kind, isSign, touches, frontSpelled, backSpelled⟩ :=
    exists_of_spelling_combined nonempty (whole_tokenize text) operand spelled
  have whole := whole_tokenize text
  rw [tokens', Whole, List.forall_mem_append, List.forall_mem_cons] at whole
  obtain ⟨lead, later, isBack, gap, -, fuel, inner, middle, rest, next, enough, read, readRest, texts,
    ended, ending⟩ := rightArgument.reads_behind given (24 * back.length + 3)
      (show (tokenize text).endOfFile.kind = .endOfFile from rfl) rfl whole.2.2 backSpelled
      (fun _ _ => by decide) fun bare => (Bool.or_eq_false_iff.1 bare).2
  have atEnd : next.peek.kind = .endOfFile := by
    rw [Cursor.peek_of_pending_eq_nil ended, ending]
    rfl
  -- The sign has a blank on both sides, so it is read as an operator between operands.
  have between : (Cursor.mk front.getLast? (sign :: back) (tokenize text).endOfFile).BetweenBlanks := by
    refine ⟨kind, ?_, ?_, ?_⟩
    · show modifierWords.contains sign.text = false
      rw [isSign]
      simpa using of_operator? (p := fun operator => !modifierWords.contains operator) (by decide)
        found isOperator
    · cases isLast : front.getLast? with
      | none => rfl
      | some token => exact touches token isLast
    · rw [isBack]
      exact adjacent_eq_false_iff.2 (gap ▸ by decide)
  -- A sign that consists of angle brackets could go on with a generic list of the left operand.
  have generics : closesAngles (Token.atomsOf left.tokens) = true ∨ ∀ begun depth previous,
      Cursor.genericRun? (tokenize text).endOfFile begun depth previous (sign :: back) = none := by
    have angles := of_operator? (p := fun operator => operator == "<" || operator == ">" ||
      !(Token.ofOperator operator).consistsOf "<>?!&") (by decide) found isOperator
    rw [Bool.or_eq_true, Bool.or_eq_true, beq_iff_eq, beq_iff_eq, Bool.not_eq_true'] at angles
    refine angles.imp stops.angles fun other => Cursor.genericRun?_operator kind ?_
    rwa [Token.consistsOf, isSign]
  obtain ⟨fuel', answer, enough', readAll, operators⟩ := leftArgument.reads_ahead given rfl
    whole.1 between generics
    (fun ternaries _ => Parser.terms_of_unary kind rfl enough read readRest atEnd ternaries)
    (List.cons_ne_nil _ _) (fuelFor (tokenize text)) frontSpelled stops.word atEnd
  obtain ⟨isExpr, -⟩ := Expr.parse_eq enough'
    (by rw [Cursor.start, tokens']; exact readAll) ended
  rw [← text_eq, isExpr, operators, List.map_cons, isSign, texts]

end Argument

/-! ### The operators of a comparison -/

/-- The operator binds no tighter than a comparison: it compares, joins conditions, chooses or
assigns. -/
def bindsNoTighter (operator : String) : Bool :=
  isLooseOperator operator || operator == "="

/-- Among the operators around a loose one there is no other loose one just where none of them is
loose. -/
theorem filter_bindsNoTighter_iff {operator : String} (loose : bindsNoTighter operator = true)
    (before after : List String) :
    (before ++ operator :: after).filter bindsNoTighter = [operator] ↔
      before.any bindsNoTighter = false ∧ after.any bindsNoTighter = false := by
  have none (operators : List String) :
      operators.filter bindsNoTighter = [] ↔ operators.any bindsNoTighter = false := by
    rw [List.filter_eq_nil_iff, List.any_eq_false]
  rw [← none, ← none, List.filter_append, List.filter_cons_of_pos loose]
  constructor
  · intro single
    have lengths := congrArg List.length single
    simp only [List.length_append, List.length_cons, List.length_nil] at lengths
    exact ⟨List.length_eq_zero_iff.1 (by omega), List.length_eq_zero_iff.1 (by omega)⟩
  · rintro ⟨noneBefore, noneAfter⟩
    rw [noneBefore, noneAfter, List.nil_append]

/-- In parentheses an expression has no operators at the top, and leaves room for one. -/
theorem Expr.operators_wrapped (expr : Expr) (wraps : Bool) :
    ((expr.wrapped wraps).leavesRoom = true ∧
        (expr.wrapped wraps).operators.any bindsNoTighter = false) ↔
      wraps = true ∨ expr.leavesRoom = true ∧ expr.operators.any bindsNoTighter = false := by
  cases wraps with
  | true => simp [wrapped, parenthesized, leavesRoom, takesOperator, operators]
  | false => simp [wrapped]

section Argument

variable {operator name source : String} {left right : Expr} {first last first' last' : Nat}
  {rule : AssertionRule}

/-- The operator of a comparison stands between the operators of its operands, and no other one there
binds as loosely, just where each operand is in parentheses or has no such operator, and the one on the
left leaves room for the operator. This holds for a source that is given back, if each token of the
comparison can be written in front of the next one. A single backquote or number sign is left out. -/
theorem comparison_groups_iff (leftArgument : left.IsArgumentAt source first last)
    (rightArgument : right.IsArgumentAt source first' last')
    (given : Node.render (SourceFile.parse source) = source)
    (lone : ∀ token ∈ (tokenize source).tokens, Piece.isLone token.text.toList = false)
    (found : assertionRule? name = some rule) (isOperator : rule.synthesis.operator? = some operator)
    (stops : left.StopsBefore operator)
    (apart : StandApart (Token.atomsOf (combined left operator right).tokens) []) :
    ((Expr.parse (Node.render (combined left operator right))).operators =
        (left.wrapped left.bindsLoosely).operators ++
          operator :: (right.wrapped (right.bindsLoosely || right.isMarked)).operators ∧
      (Expr.parse (Node.render (combined left operator right))).operators.filter bindsNoTighter =
        [operator]) ↔
    (left.bindsLoosely = true ∨ left.leavesRoom = true ∧ left.operators.any bindsNoTighter = false) ∧
      (right.bindsLoosely = true ∨ right.isMarked = true ∨
        right.operators.any bindsNoTighter = false) := by
  have loose := of_operator? (p := bindsNoTighter) (by decide) found isOperator
  have onRight : (right.wrapped (right.bindsLoosely || right.isMarked)).operators.any
      bindsNoTighter = false ↔ right.bindsLoosely = true ∨ right.isMarked = true ∨
        right.operators.any bindsNoTighter = false := by
    cases wraps : right.bindsLoosely || right.isMarked with
    | true =>
      rw [Bool.or_eq_true] at wraps
      exact iff_of_true rfl (or_assoc.1 (.inl wraps))
    | false =>
      rw [Bool.or_eq_false_iff] at wraps
      simp [wraps.1, wraps.2, Expr.wrapped]
  rw [operators_combined leftArgument rightArgument given lone found isOperator stops apart,
    ← Expr.operators_wrapped, ← onRight, and_assoc]
  cases room : (left.wrapped left.bindsLoosely).leavesRoom with
  | true => simp only [if_true, true_and, filter_bindsNoTighter_iff loose]
  | false => simp

end Argument

/-- In `XCTAssertEqual(a + b, c)` the operands are compared as they are. -/
theorem comparison_groups_sum : ∃ left right : Expr,
    left.IsArgumentAt "XCTAssertEqual(a + b, c)" 2 5 ∧
      right.IsArgumentAt "XCTAssertEqual(a + b, c)" 6 7 ∧
      (Expr.parse (Node.render (combined left "==" right))).operators =
        (left.wrapped left.bindsLoosely).operators ++
          "==" :: (right.wrapped (right.bindsLoosely || right.isMarked)).operators ∧
      (Expr.parse (Node.render (combined left "==" right))).operators.filter bindsNoTighter =
        ["=="] := by
  obtain ⟨⟨left, next⟩, leftRead, ⟨right, next'⟩, rightRead, rfl, rfl, leftNonempty, leftWhole,
      leftClosed, rightNonempty, rightWhole, rightClosed, apart, word, room, leftTight, rightTight⟩ :
      ∃ first ∈ Parser.expr (fuelFor (tokenize "XCTAssertEqual(a + b, c)")) .free
          ((tokenize "XCTAssertEqual(a + b, c)").cursorAt 2),
        ∃ second ∈ Parser.expr (fuelFor (tokenize "XCTAssertEqual(a + b, c)")) .free
            ((tokenize "XCTAssertEqual(a + b, c)").cursorAt 6),
          first.2 = (tokenize "XCTAssertEqual(a + b, c)").cursorAt 5 ∧
          second.2 = (tokenize "XCTAssertEqual(a + b, c)").cursorAt 7 ∧
          first.1.isEmpty = false ∧ Whole first.1.tokens ∧
          closesGroups (Token.atomsOf first.1.tokens) = true ∧
          second.1.isEmpty = false ∧ Whole second.1.tokens ∧
          closesGroups (Token.atomsOf second.1.tokens) = true ∧
          StandApart (Token.atomsOf (combined first.1 "==" second.1).tokens) [] ∧
          (∀ token ∈ (Token.atomsOf first.1.tokens).getLast?, token.text ∉ ["init", "operator"]) ∧
          first.1.leavesRoom = true ∧ first.1.operators.any bindsNoTighter = false ∧
          second.1.operators.any bindsNoTighter = false := by
    decide +kernel
  have leftArgument : left.IsArgumentAt "XCTAssertEqual(a + b, c)" 2 5 :=
    { read := leftRead, behind := by decide +kernel, unlabelled := by decide +kernel,
      ahead := by decide +kernel, nonempty := leftNonempty, whole := leftWhole, closed := leftClosed }
  have rightArgument : right.IsArgumentAt "XCTAssertEqual(a + b, c)" 6 7 :=
    { read := rightRead, behind := by decide +kernel, unlabelled := by decide +kernel,
      ahead := by decide +kernel, nonempty := rightNonempty, whole := rightWhole,
      closed := rightClosed }
  have stops : left.StopsBefore "==" := ⟨word, fun isAngle => absurd isAngle (by decide)⟩
  have groups := comparison_groups_iff leftArgument rightArgument (by decide +kernel)
    (by decide +kernel) (show assertionRule? "XCTAssertEqual" = some _ from rfl) rfl stops apart
  exact ⟨left, right, leftArgument, rightArgument,
    groups.2 ⟨.inr ⟨room, leftTight⟩, .inr (.inr rightTight)⟩⟩

/-- In `XCTAssertEqual(a = b, c)` the left operand assigns, but is not put in parentheses. -/
theorem comparison_regroups :
    ∃ statement ∈ (SourceFile.parse "XCTAssertEqual(a = b, c)").statements,
      ∃ parts ∈ statement.call?,
        ∃ left ∈ parts.2.1.arguments.head?, ∃ right ∈ parts.2.1.arguments.getLast?,
          Node.render (combined left.value "==" right.value) = "a = b == c" ∧
            (Expr.parse (Node.render (combined left.value "==" right.value))).operators.filter
              bindsNoTighter = ["=", "=="] := by
  decide +kernel

end SuiteMigration
