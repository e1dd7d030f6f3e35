import Mathlib.Tactic.Common
import SuiteMigration.Proofs.Reading.Arrival

/-!
# Operands and what ends them

How an expression begins is read off its first token, and which operators it has at the top is read off
what the grammar finds behind the first operand. An operand ends at a comma, at a closing parenthesis,
at the end of the stream, or in front of an operator that has blanks around it.

## Main definitions

* `Expr.isPostfix` - no mark, no prefix and no operator stands at the top
* `Parser.startsExpression` - expressions begin with such tokens only
* `Token.EndsOperand` - what ends an operand
* `Cursor.BetweenBlanks` - an operator with blanks around it

## Main results

* `Parser.unary_eq_some`, `Parser.expr_eq_some` - how operands and expressions are read
* `Parser.unary_parenthesized` - an expression in parentheses is read as a tuple
-/

namespace SuiteMigration

/-! ### How an expression begins -/

/-- The expression has no mark, no prefix and no operator at the top. -/
def Expr.isPostfix : Expr → Bool
  | .trying .. | .awaiting .. | .prefixed .. | .sequence .. => false
  | _ => true

namespace Parser

variable {fuel : Nat} {position : Position} {cursor next : Cursor} {expr : Expr}

/-- What one of two computations gives that agree, the other one gives as well. -/
theorem Agree.transfer {α : Type} {p q : Parser α} {post : α → Cursor → Prop} {answer : α}
    (agree : Agree p q cursor post) (given : p cursor = some (answer, next)) :
    q cursor = some (answer, next) ∧ post answer next := by
  obtain ⟨_, _, read, read', holds⟩ := agree
  obtain ⟨rfl, rfl⟩ := Prod.mk.inj (Option.some.inj (given.symm.trans read))
  exact ⟨read', holds⟩

theorem isPostfix_collection (given : Parser.collection fuel cursor = some (expr, next)) :
    expr.isPostfix = true := by
  cases fuel with
  | zero => cases given
  | succ fuel =>
    rw [Parser.collection, bump_bind, ask_bind] at given
    split at given
    · obtain ⟨rfl, -⟩ := pure_eq_some given
      rfl
    · obtain ⟨elements, middle, -, given⟩ := bind_eq_some given
      obtain ⟨token, last, -, given⟩ := bind_eq_some given
      obtain ⟨rfl, -⟩ := pure_eq_some given
      rfl

theorem isPostfix_primary (given : Parser.primary fuel position cursor = some (expr, next)) :
    expr.isPostfix = true := by
  have mapped {α : Type} {make : α → Expr} {p : Parser α} (all : ∀ value, (make value).isPostfix = true)
      (given : (make <$> p) cursor = some (expr, next)) : expr.isPostfix = true := by
    obtain ⟨value, -, rfl⟩ := map_eq_some given
    exact all value
  have none (given : (pure .empty : Parser Expr) cursor = some (expr, next)) :
      expr.isPostfix = true := by
    obtain ⟨rfl, -⟩ := pure_eq_some given
    rfl
  cases fuel with
  | zero => cases given
  | succ fuel =>
    rw [Parser.primary, ask_bind] at given
    -- The kind of the first token says what is read; most kinds begin nothing.
    cases kind : cursor.peek.kind
    all_goals rw [kind] at given
    all_goals simp only at given
    case identifier =>
      split at given
      · exact mapped (fun _ => rfl) given
      split at given
      · exact none given
      · exact mapped (fun _ => rfl) given
    case poundIdentifier | number | stringLiteral | leftParen => exact mapped (fun _ => rfl) given
    case leftBracket => exact isPostfix_collection given
    case leftBrace =>
      split at given
      · exact mapped (fun _ => rfl) given
      · exact none given
    case period =>
      rw [bump_bind] at given
      obtain ⟨name, last, -, given⟩ := bind_eq_some given
      obtain ⟨rfl, -⟩ := pure_eq_some given
      rfl
    all_goals exact none given

theorem isPostfix_suffixes {base : Expr} (postfix_ : base.isPostfix = true)
    (given : Parser.suffixes fuel position base cursor = some (expr, next)) :
    expr.isPostfix = true := by
  induction fuel generalizing base cursor with
  | zero => cases given
  | succ fuel ih =>
    rw [Parser.suffixes, get_bind] at given
    split at given
    · exact ih rfl given
    split at given
    · obtain ⟨arguments, middle, -, given⟩ := bind_eq_some given
      exact ih rfl given
    split at given
    · obtain ⟨arguments, middle, -, given⟩ := bind_eq_some given
      exact ih rfl given
    split at given
    · obtain ⟨closure, middle, -, given⟩ := bind_eq_some given
      exact ih (by cases base <;> rfl) given
    split at given
    · exact ih rfl given
    cases generics : cursor.genericArguments? with
    | some length =>
      rw [generics] at given
      exact ih rfl given
    | none =>
      rw [generics] at given
      obtain ⟨rfl, -⟩ := pure_eq_some given
      exact postfix_

/-- An operand has a mark with an expression behind it, or a prefix, or neither. -/
theorem unary_eq_some (given : Parser.unary (fuel + 1) position cursor = some (expr, next)) :
    (cursor.atKeyword "try" = true ∧ ∃ mark middle operand,
      expr = .trying cursor.bump.1 mark operand ∧
      optionalMark cursor.bump.2 = some (mark, middle) ∧
      Parser.expr fuel position middle = some (operand, next)) ∨
    (cursor.atKeyword "await" = true ∧ ∃ operand, expr = .awaiting cursor.bump.1 operand ∧
      Parser.expr fuel position cursor.bump.2 = some (operand, next)) ∨
    (cursor.atOperator .before = true ∧ ∃ operand, expr = .prefixed cursor.bump.1 operand ∧
      Parser.unary fuel position cursor.bump.2 = some (operand, next)) ∨
    (cursor.isAt .backslash = true ∧ ∃ operand, expr = .prefixed cursor.bump.1 operand ∧
      operand.isPostfix = true) ∨
    expr.isPostfix = true := by
  rw [Parser.unary, get_bind] at given
  split at given
  · next isTry =>
    rw [bump_bind] at given
    obtain ⟨mark, middle, readMark, given⟩ := bind_eq_some given
    obtain ⟨operand, last, readOperand, given⟩ := bind_eq_some given
    obtain ⟨rfl, rfl⟩ := pure_eq_some given
    exact .inl ⟨isTry, mark, middle, operand, rfl, readMark, readOperand⟩
  split at given
  · next isAwait =>
    rw [bump_bind] at given
    obtain ⟨operand, last, readOperand, given⟩ := bind_eq_some given
    obtain ⟨rfl, rfl⟩ := pure_eq_some given
    exact .inr (.inl ⟨isAwait, operand, rfl, readOperand⟩)
  split at given
  · next isPrefix =>
    rw [bump_bind] at given
    obtain ⟨operand, last, readOperand, given⟩ := bind_eq_some given
    obtain ⟨rfl, rfl⟩ := pure_eq_some given
    exact .inr (.inr (.inl ⟨isPrefix, operand, rfl, readOperand⟩))
  split at given
  · next isPath =>
    rw [bump_bind] at given
    obtain ⟨root, middle, readRoot, given⟩ := bind_eq_some given
    obtain ⟨operand, last, readOperand, given⟩ := bind_eq_some given
    obtain ⟨rfl, rfl⟩ := pure_eq_some given
    exact .inr (.inr (.inr (.inl ⟨isPath, operand, rfl,
      isPostfix_suffixes (isPostfix_primary readRoot) readOperand⟩)))
  · -- Nothing of this begins here, so the operand is a primary with its suffixes, or is missing.
    obtain ⟨root, middle, read, given⟩ := bind_eq_some given
    have isPostfix := isPostfix_primary read
    split at given
    · exact .inr (.inr (.inr (.inr ((pure_eq_some given).1 ▸ isPostfix))))
    · exact .inr (.inr (.inr (.inr (isPostfix_suffixes isPostfix given))))

/-- Expressions begin with such tokens only. An operator in front of one is bound to it. -/
def startsExpression (kind : TokenKind) : Bool :=
  !Cursor.closesRight kind && kind != .arrow

theorem starts_of_primary (given : Parser.primary fuel position cursor = some (expr, next))
    (some : expr.isEmpty = false) : startsExpression cursor.peek.kind = true := by
  cases fuel with
  | zero => cases given
  | succ fuel =>
    rw [Parser.primary, ask_bind] at given
    cases kind : cursor.peek.kind
    case comma | colon | semicolon | rightParen | rightBracket | rightBrace | endOfFile | arrow =>
      rw [kind] at given
      obtain ⟨rfl, -⟩ := pure_eq_some given
      cases some
    all_goals rfl

theorem starts_of_unary (given : Parser.unary fuel position cursor = some (expr, next))
    (some : expr.isEmpty = false) : startsExpression cursor.peek.kind = true := by
  have ofKind {kind : TokenKind} (here : cursor.isAt kind = true)
      (starts : startsExpression kind = true) : startsExpression cursor.peek.kind = true := by
    rwa [beq_iff_eq.1 here]
  cases fuel with
  | zero => cases given
  | succ fuel =>
    -- Each branch is entered at a token of one kind, and all of these kinds begin an expression.
    rw [Parser.unary, get_bind] at given
    split at given
    · next isTry =>
      rw [Cursor.atKeyword, Token.isKeyword, Bool.and_eq_true] at isTry
      exact ofKind isTry.1 rfl
    split at given
    · next isAwait =>
      rw [Cursor.atKeyword, Token.isKeyword, Bool.and_eq_true] at isAwait
      exact ofKind isAwait.1 rfl
    split at given
    · next isPrefix =>
      rw [Cursor.atOperator, Bool.and_eq_true] at isPrefix
      exact ofKind isPrefix.1 rfl
    split at given
    · next isPath => exact ofKind isPath rfl
    · obtain ⟨root, middle, read, given⟩ := bind_eq_some given
      split at given
      · next none =>
        obtain ⟨rfl, -⟩ := pure_eq_some given
        exact absurd none (by simp [some])
      · next some => exact starts_of_primary read (Bool.eq_false_iff.2 some)

/-- Where no operator is read, nothing is. -/
theorem eq_of_terms_nil {ternaries : Nat}
    (given : Parser.terms fuel position ternaries cursor = some ([], next)) : next = cursor := by
  cases fuel with
  | zero => cases given
  | succ fuel =>
    have given := terms_nil_iff.1 given
    rw [binaryOperator?, get_bind] at given
    split at given
    · obtain ⟨_, -, same⟩ := map_eq_some given
      cases same
    split at given
    · obtain ⟨_, -, same⟩ := map_eq_some given
      cases same
    · exact (pure_eq_some given).2

/-- The first operand of an expression, and the operators behind it. -/
theorem expr_eq_some (given : Parser.expr (fuel + 1) position cursor = some (expr, next))
    (nonempty : expr.isEmpty = false) : ∃ first rest middle,
      Parser.unary fuel position cursor = some (first, middle) ∧ first.isEmpty = false ∧
      Parser.terms fuel position 0 middle = some (rest, next) ∧
      expr = .ofTerms first rest := by
  rw [Parser.expr] at given
  obtain ⟨first, middle, readFirst, given⟩ := bind_eq_some given
  split at given
  · next none =>
    obtain ⟨rfl, rfl⟩ := pure_eq_some given
    exact absurd none (by simp [nonempty])
  · next some =>
    obtain ⟨rest, last, readRest, given⟩ := bind_eq_some given
    obtain ⟨rfl, rfl⟩ := pure_eq_some given
    exact ⟨first, rest, middle, readFirst, Bool.eq_false_iff.2 some, readRest, rfl⟩

end Parser

/-! ### What comes behind an operand -/

/-- What ends an operand: a comma, a closing parenthesis, or nothing. -/
def operandEnds : List (TokenKind × String) :=
  [(.comma, ","), (.rightParen, ")"), (.endOfFile, "")]

/-- The token ends an operand. -/
def Token.EndsOperand (token : Token) : Prop :=
  (token.kind, token.text) ∈ operandEnds

namespace Token.EndsOperand

variable {token : Token} (closer : token.EndsOperand)

include closer

theorem not_operator : (token.kind == .operator) = false := by
  have all : ∀ entry ∈ operandEnds, (entry.1 == .operator) = false := by decide
  exact all _ closer

theorem word : modifierWords.contains token.text = false := by
  have all : ∀ entry ∈ operandEnds, modifierWords.contains entry.2 = false := by decide
  exact all _ closer

/-- Such a token says nothing about the word before it. -/
theorem declares (last : Token) : isDeclarationKeyword last token =
    (last.kind == .identifier && declarationWords.contains last.text) := by
  have all : ∀ entry ∈ operandEnds, (entry.1 == .leftParen) = false ∧
      (entry.1 == .identifier) = false ∧ "<".toList.isPrefixOf entry.2.toList = false := by decide
  obtain ⟨paren, name, angle⟩ := all _ closer
  simp only at paren name angle
  rw [isDeclarationKeyword, isOptionalMark, isOperator, isOperator, startsWith, closer.not_operator,
    paren, name, angle]
  simp

end Token.EndsOperand

namespace Cursor

variable {endOfFile token : Token} {later : List Token}

/-- No generic argument list goes on over an operator that is not made of angles. -/
theorem genericRun?_operator (kind : token.kind = .operator) (other : token.consistsOf "<>?!&" = false)
    (begun : Bool) (depth : Int) (previous : Option Token) :
    genericRun? endOfFile begun depth previous (token :: later) = none := by
  rw [genericRun?]
  split
  · rfl
  · rw [if_pos (beq_iff_eq.2 kind), if_neg (by simp [other])]

theorem genericRun?_rightParen (kind : token.kind = .rightParen)
    (none : ∀ begun depth previous, genericRun? endOfFile begun depth previous later = none)
    (begun : Bool) (depth : Int) (previous : Option Token) :
    genericRun? endOfFile begun depth previous (token :: later) = Option.none := by
  rw [genericRun?, kind]
  split
  · rfl
  · rw [if_neg (by decide), if_pos (by decide), none]
    rfl

end Cursor

/-- An operator stands at the cursor, with blanks around it. -/
structure Cursor.BetweenBlanks (cursor : Cursor) : Prop where
  kind : cursor.peek.kind = .operator
  word : modifierWords.contains cursor.peek.text = false
  left : cursor.atAdjacent = false
  right : adjacent (some cursor.peek) cursor.second = false

namespace Cursor.BetweenBlanks

variable {cursor : Cursor} (between : cursor.BetweenBlanks)

include between

theorem leftBound : cursor.leftBound = false := by
  rw [Cursor.leftBound, between.left, Bool.false_and]

/-- Such an operator stands between operands. -/
theorem role : cursor.role = .between := by
  have right : cursor.rightBound = false := by rw [Cursor.rightBound, between.right, Bool.false_and]
  rw [Cursor.role, between.leftBound, right]
  simp

/-- Only few words are keywords in front of operators. -/
theorem declares {last : Token} (word : last.text ∉ ["init", "operator"]) :
    isDeclarationKeyword last cursor.peek =
      (last.kind == .identifier && declarationWords.contains last.text) := by
  simp only [List.mem_cons, List.not_mem_nil, or_false, not_or] at word
  rw [isDeclarationKeyword, between.kind, beq_eq_false_iff_ne.2 word.1, beq_eq_false_iff_ne.2 word.2]
  have other : (TokenKind.operator == .identifier) = false := rfl
  simp [other]

end Cursor.BetweenBlanks

/-! ### Where reading stops -/

namespace Parser

variable {fuel : Nat} {position : Position} {cursor : Cursor}

/-- At the end of a stream no operator follows. -/
theorem terms_at_end (ending : cursor.peek.kind = .endOfFile) (ternaries : Nat) :
    Parser.terms (fuel + 1) position ternaries cursor = some ([], cursor) := by
  have isAt {kind : TokenKind} (other : kind ≠ .endOfFile) : cursor.isAt kind = false :=
    beq_eq_false_iff_ne.2 (ending.trans_ne other.symm)
  have none : binaryOperator? ternaries cursor = some (Option.none, cursor) := by
    have word (keyword : String) : cursor.atKeyword keyword = false := by
      rw [Cursor.atKeyword, Token.isKeyword, ending]
      rfl
    rw [binaryOperator?, get_bind, Cursor.atOperator, isAt (by decide), isAt (by decide), word, word]
    rfl
  rw [Parser.terms, bind_apply none]
  rfl

/-- No suffix is read at the end of a stream, or where an operator has blanks around it. -/
theorem suffixes_at_end (ending : cursor.peek.kind = .endOfFile ∨ cursor.BetweenBlanks)
    (base : Expr) : Parser.suffixes (fuel + 1) position base cursor = some (base, cursor) := by
  have isAt {kind : TokenKind} (notEnd : kind ≠ .endOfFile) (notOperator : kind ≠ .operator) :
      cursor.isAt kind = false := by
    rw [Cursor.isAt, beq_eq_false_iff_ne]
    exact ending.elim (·.trans_ne notEnd.symm) (·.kind.trans_ne notOperator.symm)
  have after : cursor.atOperator .after = false ∧ cursor.genericArguments? = none := by
    rcases ending with ending | between
    · rw [Cursor.atOperator, Cursor.isAt, Cursor.genericArguments?, Token.opensAngle, ending]
      exact ⟨rfl, rfl⟩
    · rw [Cursor.atOperator, between.role, Cursor.genericArguments?, between.leftBound, Bool.and_false]
      exact ⟨Bool.and_false _, rfl⟩
  rw [Parser.suffixes, get_bind, Cursor.atMember, isAt (by decide) (by decide),
    isAt (by decide) (by decide), isAt (by decide) (by decide), isAt (by decide) (by decide), after.1,
    after.2]
  rfl

/-- An expression in parentheses is read as a tuple. -/
theorem unary_parenthesized {middle : Cursor} {value : Expr} (proper : cursor.Proper)
    (opens : cursor.isAt .leftParen = true)
    (starts : startsExpression cursor.bump.2.peek.kind = true)
    (unlabelled : cursor.bump.2.atLabel = false)
    (read : Parser.expr fuel .free cursor.bump.2 = some (value, middle))
    (nonempty : value.isEmpty = false) (closes : middle.isAt .rightParen = true)
    (ending : middle.bump.2.peek.kind = .endOfFile ∨ middle.bump.2.BetweenBlanks) :
    Parser.unary (fuel + 4) .free cursor =
      some (.tuple ⟨cursor.bump.1, [⟨none, value, none⟩], middle.bump.1⟩, middle.bump.2) := by
  have properNext : cursor.bump.2.Proper := by
    rw [Cursor.bump]
    split <;> exact proper
  -- The list is not empty, because an expression begins behind the parenthesis.
  have more : (cursor.bump.2.atEnd || cursor.bump.2.isAt .rightParen) = false := by
    rw [Bool.or_eq_false_iff]
    constructor
    · by_contra ended
      rw [Bool.not_eq_false, Cursor.atEnd, List.isEmpty_iff] at ended
      rw [Cursor.peek_of_pending_eq_nil ended, properNext] at starts
      cases starts
    · by_contra closed
      rw [Bool.not_eq_false, Cursor.isAt, beq_iff_eq] at closed
      rw [closed] at starts
      cases starts
  -- From the inside out: no label, the value, nothing astray, no comma, then the closing
  -- parenthesis.
  have readLabel : label? cursor.bump.2 = some (none, cursor.bump.2) := by
    rw [label?, ask_bind, unlabelled]
    rfl
  have readStray : absorbStray value .rightParen middle = some (value, middle) := by
    rw [absorbStray, ask_bind, Cursor.atArgumentEnd, closes, Bool.or_true]
    rfl
  have notComma : middle.isAt .comma = false := by
    rw [Cursor.isAt, beq_iff_eq.1 closes]
    rfl
  have readArguments : Parser.arguments (fuel + 1) .rightParen cursor.bump.2 =
      some ([⟨none, value, none⟩], middle) := by
    rw [Parser.arguments, ask_bind, more, if_neg Bool.false_ne_true, bind_apply readLabel,
      bind_apply read, bind_apply readStray, bind_apply (bumpIf_of_not notComma), nonempty]
    rfl
  have readCloser : expect .rightParen middle = some (middle.bump.1, middle.bump.2) :=
    (bind_apply (bumpIf_of closes)).trans rfl
  have readList : Parser.argumentList (fuel + 2) .rightParen cursor =
      some (⟨cursor.bump.1, [⟨none, value, none⟩], middle.bump.1⟩, middle.bump.2) := by
    rw [Parser.argumentList, bump_bind, bind_apply readArguments, bind_apply readCloser]
    rfl
  have readTuple : Parser.primary (fuel + 3) .free cursor =
      some (.tuple ⟨cursor.bump.1, [⟨none, value, none⟩], middle.bump.1⟩, middle.bump.2) := by
    rw [Parser.primary, ask_bind, beq_iff_eq.1 opens]
    exact map_apply readList
  have kind := beq_iff_eq.1 opens
  rw [Parser.unary, get_bind, Cursor.atKeyword, Cursor.atKeyword, Token.isKeyword, Token.isKeyword,
    Cursor.atOperator, Cursor.isAt, Cursor.isAt, kind]
  refine (bind_apply readTuple).trans ?_
  exact suffixes_at_end ending _

end Parser

/-! ### The end of the way -/

/-- A label stands at both cursors or at neither. -/
theorem Level.atLabel_eq {passage : Passage} {cursor cursor' : Cursor}
    (level : Level passage cursor cursor') (ends : passage.Ends) (inside : passage.Inside cursor) :
    cursor.atLabel = cursor'.atLabel := by
  have second := level.test_second inside (fun token => token.kind == .colon)
    (fun _ _ like => by rw [like.kind]) (ends.kind_ne _ (by decide) (by decide))
    (ends.kind_ne' _ (by decide) (by decide) (by decide))
  exact congrArg₂ (· && ·) (level.isAt_eq ends _ (by decide)) second

/-- At the end of the way what is left of the second stream is what comes after the way. -/
theorem Abreast.at_stop {passage : Passage} {cursor cursor' : Cursor}
    (abreast : Abreast passage cursor cursor') (outside : ¬ passage.Inside cursor) :
    cursor'.pending = passage.stop'.pending ∧ cursor'.endOfFile = passage.stop'.endOfFile := by
  rcases abreast.cases with ⟨_, _, _, _, inside, -⟩ | ⟨-, pending, -⟩
  · exact absurd inside outside
  · exact ⟨pending, abreast.endOfFile'⟩

end SuiteMigration
