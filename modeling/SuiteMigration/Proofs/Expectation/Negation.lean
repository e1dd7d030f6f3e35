import Mathlib.Tactic.Common
import SuiteMigration.Proofs.Expectation.Rereading

/-!
# Negations read again

An assertion that a condition is false becomes an expectation of its negation, and the text of the
negation is read again. The sign of the negation stands right in front of its operand. An operand in
parentheses is safe, and so is one that begins with no operator; any other operator at its start runs
into the sign, and the two are read as one.

## Main results

* `negation_applies_iff` - when the negation applies to the whole argument, read again
* `negation_merges` - the sign of a negation runs into the operator in front of its operand
-/

namespace SuiteMigration

open Lexeme

/-! ### Operators in front of tokens -/

/-- A token that begins like an operator is one, or an arrow. -/
theorem Piece.kind_of_operator {kind : TokenKind} {text rest : List Char}
    (leads : (Piece.token kind text).Leads rest) (begins : Lexeme.operator (text ++ rest) ≠ 0) :
    kind = .operator ∨ kind = .arrow := by
  obtain ⟨c, cs, rfl⟩ := List.exists_cons_of_ne_nil (List.length_pos_iff.1 leads.pos)
  obtain ⟨rule, found, made⟩ := leads
  simp only [Piece.text] at found made
  obtain ⟨line, blank, block, comment⟩ := plain_of_token found made
  rw [first_eq_of_plain line blank block comment] at found
  have isOperator : isOperatorChar c = true := by
    rw [List.cons_append, Ne, operator_cons_eq_zero_iff, not_or] at begins
    simpa using begins.2
  have other : ∀ c ∈ "/=-+!*%<>&|^~?".toList,
      (Text.isIdentifierStart c || c.isDigit || ['"', '#', '\x60', '$', '_'].contains c) = false :=
    eq_false_of_any (by decide +kernel)
  replace other := other c (List.contains_iff_mem.1 isOperator)
  rw [Bool.or_eq_false_iff, Bool.or_eq_false_iff, List.contains_eq_mem, decide_eq_false_iff_not]
    at other
  obtain ⟨⟨start, digit⟩, different⟩ := other
  simp only [List.mem_cons, List.not_mem_nil, or_false, not_or] at different
  obtain ⟨quote, number, backquote, dollar, underscore⟩ := different
  have none : Lexeme.string (c :: (cs ++ rest)) = 0 ∧ Lexeme.rawString (c :: (cs ++ rest)) = 0 ∧
      Lexeme.poundIdentifier (c :: (cs ++ rest)) = 0 ∧ Lexeme.number (c :: (cs ++ rest)) = 0 ∧
      Lexeme.identifier (c :: (cs ++ rest)) = 0 := by
    refine ⟨string_of_ne quote _, rawString_of_ne number _, poundIdentifier_of_ne number _, ?_, ?_⟩
    · rw [Lexeme.number, digit, if_neg Bool.false_ne_true]
    · rw [identifier_plain backquote dollar, Lexeme.plainName, start]
      simp [underscore]
  obtain ⟨noString, noRawString, noSignedName, noNumber, noName⟩ := none
  rw [List.cons_append] at found begins
  simp only [tokenRules, rules, List.drop_succ_cons, List.drop_zero, first, noString, noRawString,
    noSignedName, noNumber, noName, Nat.lt_irrefl, if_false, Nat.pos_of_ne_zero begins, if_true]
    at found
  -- The class that wins is the arrow, the range or the operator.
  split at found
  · obtain ⟨rfl, -⟩ := Prod.mk.inj found
    exact .inr (Piece.token.inj made).1.symm
  split at found
  · obtain ⟨rfl, -⟩ := Prod.mk.inj found
    exact .inl (Piece.token.inj made).1.symm
  · obtain ⟨rfl, -⟩ := Prod.mk.inj found
    exact .inl (Piece.token.inj made).1.symm

/-! ### The sign of a negation -/

section Negation

variable {operand : Expr} {tokens : List Token} {rest : List Char}

/-- The sign of a negation. -/
def negationSign (leading : Trivia) : Token :=
  (Token.ofOperator "!").withLeading leading

theorem toList_negationSign (leading : Trivia) : (negationSign leading).text.toList = ['!'] ∧
    (negationSign leading).trailing.toList = [] := by
  simp [negationSign, Token.ofOperator, Token.withLeading]

theorem tokens_negated (operand : Expr) : (negated operand).tokens =
    negationSign (Node.leading operand) ::
      (Node.setLeading (operand.wrapped operand.needsParens) "").tokens := by
  have leading_eq : Node.leading (operand.wrapped operand.needsParens) = Node.leading operand := by
    unfold Expr.wrapped
    split
    · exact Node.leading_parenthesized operand
    · rfl
  rw [← leading_eq]
  simp [negated, Expr.tokens, negationSign, Expr.wrapped]

theorem atoms_negationSign (leading : Trivia) :
    (negationSign leading).atoms = [negationSign leading] := by
  have word : "!" ≠ "" := by decide
  exact Token.atoms_of_text word fun fused => absurd fused.1 TokenKind.noConfusion

/-- A sign in front of an operator is read as one with it. -/
theorem head_words_of_operator {leading : Trivia} (ahead : ∀ old, IsGap old leading.toList)
    {text : List Char} (text_eq : (Token.renderAll tokens).toList = text) :
    ((tokenize (Token.renderAll (negationSign leading :: tokens))).tokens.map
      fun token => (token.kind, token.text)).head? =
        some (.operator, .ofList ('!' :: text.take (Lexeme.operator text))) := by
  have extent : Lexeme.operator (['!'] ++ text) = 1 + Lexeme.operator text :=
    operator_append (by simp [signCharacters]) text
  rw [List.singleton_append] at extent
  have leads : (Piece.token .operator ('!' :: text.take (Lexeme.operator text))).Leads
      (text.drop (Lexeme.operator text)) := by
    refine ⟨⟨Lexeme.operator, .token .operator⟩, ?_, rfl⟩
    rw [Piece.text, List.cons_append, List.take_append_drop, Piece.first_sign (by decide), extent,
      List.length_cons, List.length_take_of_le (operator_le text), Nat.add_comm]
  refine head_words_of_leads (ahead _) leads ?_
  obtain ⟨sign, bare⟩ := toList_negationSign leading
  rw [List.cons_append, List.take_append_drop, toList_renderAll_cons, text_eq, sign, bare]
  rfl

/-- The sign of a negation can be put in front of an operand that begins with no operator. -/
theorem Operand.consSign {leading : Trivia} (behind : Operand tokens [])
    (ahead : ∀ old, IsGap old leading.toList)
    (stops : Lexeme.operator (Token.renderAll tokens).toList = 0) :
    Operand (negationSign leading :: tokens) [] := by
  obtain ⟨sign, bare⟩ := toList_negationSign leading
  have leads : (Piece.token .operator ['!']).Leads (Token.renderAll tokens).toList :=
    (Piece.leads_signs_iff (List.cons_ne_nil _ _) (by simp [signCharacters])).2 stops
  have legible : (negationSign leading).LegibleBefore ((Token.renderAll tokens).toList ++ []) := by
    rw [List.append_nil]
    refine ⟨ahead _, fun _ => ?_, .nil⟩
    rw [sign, bare]
    exact leads
  have word : "!" ≠ "" := by decide
  have whole : Piece.isLone "!".toList = false := by decide
  exact behind.cons (atoms_negationSign leading) word whole legible

/-! ### The tree of a negation -/

/-- A sign in front of an operand that it is bound to, with nothing behind the operand. -/
theorem parse_prefixed {text : String} {fuel : Nat} {sign lead : Token} {later : List Token}
    {inner : Expr} {next : Cursor} (tokens_eq : (tokenize text).tokens = sign :: lead :: later)
    (kind : sign.kind = .operator) (isSign : sign.text = "!")
    (bound : adjacent (some sign) lead = true) (starts : Parser.startsExpression lead.kind = true)
    (enough : fuelFor (tokenize text) ≤ fuel + 2)
    (read : Parser.unary fuel .free ⟨some sign, lead :: later, (tokenize text).endOfFile⟩ =
      some (inner, next)) (ended : next.pending = [])
    (ending : next.endOfFile = (tokenize text).endOfFile) :
    Expr.parse text = .prefixed sign inner ∧ Token.atomsOf inner.tokens = lead :: later := by
  obtain ⟨cursor, isStart⟩ : ∃ cursor, cursor = Cursor.start (tokenize text) := ⟨_, rfl⟩
  have pending : cursor.pending = sign :: lead :: later := isStart ▸ tokens_eq
  have isNext : cursor.bump =
      (sign, ⟨some sign, lead :: later, (tokenize text).endOfFile⟩) := by
    rw [Cursor.bump_of_pending pending, isStart]
    rfl
  have isPeek : cursor.peek = sign := by rw [Cursor.peek, pending, List.headD_cons]
  have isSecond : cursor.second = lead := by
    rw [Cursor.second, pending, List.tail_cons, List.headD_cons]
  -- At the start of the text nothing is bound on the left, and on the right the operand touches the
  -- sign.
  have before : cursor.atOperator .before = true := by
    have left : cursor.leftBound = false := by
      rw [Cursor.leftBound, Cursor.atAdjacent, isStart]
      rfl
    have right : cursor.rightBound = true := by
      rw [Parser.startsExpression, Bool.and_eq_true, Bool.not_eq_true'] at starts
      rw [Cursor.rightBound, isPeek, isSecond, bound, starts.1]
      rfl
    rw [Cursor.atOperator, Cursor.isAt, Cursor.role, left, right, isPeek, kind, isSign]
    rfl
  have readUnary : Parser.unary (fuel + 1) .free cursor = some (.prefixed sign inner, next) := by
    have word (keyword : String) : cursor.atKeyword keyword = false := by
      rw [Cursor.atKeyword, Token.isKeyword, isPeek, kind]
      rfl
    rw [Parser.unary, Parser.get_bind, word, word, before, if_neg Bool.false_ne_true,
      if_neg Bool.false_ne_true, if_pos rfl, Parser.bump_bind, isNext, Parser.bind_apply read]
    rfl
  have atEnd : next.peek.kind = .endOfFile := by
    rw [Cursor.peek_of_pending_eq_nil ended, ending]
    rfl
  have readExpr : Parser.expr (fuel + 2) .free cursor = some (.prefixed sign inner, next) := by
    have some : (Expr.prefixed sign inner).isEmpty = false := rfl
    rw [Parser.expr, Parser.bind_apply readUnary, some, if_neg Bool.false_ne_true,
      Parser.bind_apply (Parser.terms_at_end atEnd 0)]
    rfl
  obtain ⟨isExpr, atoms⟩ := Expr.parse_eq enough (isStart ▸ readExpr) ended
  have word : sign.text ≠ "" := isSign ▸ by decide
  have own : sign.atoms = [sign] := Token.atoms_of_text word (by simp [kind])
  refine ⟨isExpr, ?_⟩
  rw [Expr.tokens, Token.atomsOf_cons, own, tokens_eq] at atoms
  exact (List.cons.inj atoms).2

section Argument

variable {source : String} {first last : Nat} {operand : Expr}
  (argument : operand.IsArgumentAt source first last)
  (given : Node.render (SourceFile.parse source) = source)
  (lone : ∀ token ∈ (tokenize source).tokens, Piece.isLone token.text.toList = false)
  (apart : StandApart (Token.atomsOf (negated operand).tokens) [])

include argument

/-- No operator begins where the operand of a negation does, if it stands in parentheses or begins
with none. -/
theorem Expr.IsArgumentAt.operator_eq_zero
    (behind : Operand (Node.setLeading (operand.wrapped operand.needsParens) "").tokens [])
    (safe : operand.needsParens = true ∨ operand.startsWithOperator = false) : Lexeme.operator
      (Token.renderAll (Node.setLeading (operand.wrapped operand.needsParens) "").tokens).toList =
        0 := by
  cases wraps : operand.needsParens with
  | true =>
    rw [operand.tokens_wrapped_behind, parentheses, toList_renderAll_cons]
    simp [Token.ofPunctuation, Token.withLeading, operator_cons_eq_zero_iff, isOperatorChar]
  | false =>
    obtain ⟨lead, later, tokens, pending⟩ := argument.taken
    rw [wraps] at behind safe
    replace safe := safe.resolve_left Bool.false_ne_true
    rw [argument.startsWithOperator tokens, beq_eq_false_iff_ne] at safe
    have bare : Token.atomsOf (Node.setLeading (operand.wrapped false) "").tokens =
        lead.withLeading "" :: later := argument.atomsOf_setLeading tokens
    have legible := behind.legible
    rw [bare] at legible
    have word : lead.text ≠ "" := argument.words lead (tokens ▸ List.mem_cons_self)
    have leads := legible.1.word word
    -- If an operator began here, the first token would be one, or an arrow, which begins no
    -- expression.
    by_contra begins
    rw [← Token.renderAll_atomsOf, bare, toList_renderAll_cons] at begins
    rw [List.append_nil] at leads
    have starts := argument.starts.2
    rw [Cursor.peek, pending, List.cons_append, List.headD_cons] at starts
    rcases Piece.kind_of_operator leads begins with operator | arrow
    · exact safe operator
    · rw [show lead.kind = .arrow from arrow] at starts
      cases starts

include given lone apart

/-- The operand of a negation is one behind the sign too. -/
theorem Expr.IsArgumentAt.behind_sign : (∀ old, IsGap old (Node.leading operand).toList) ∧
    Operand (Node.setLeading (operand.wrapped operand.needsParens) "").tokens [] := by
  obtain ⟨old, nonempty, isOperand⟩ := argument.operand given lone
  rw [tokens_negated, Token.atomsOf_cons, atoms_negationSign] at apart
  exact ⟨isOperand.isGap_leading, isOperand.behind nonempty operand.needsParens apart.2⟩

/-- Where no operator begins behind the sign, it is read for itself, with its operand behind it. -/
theorem Expr.IsArgumentAt.exists_sign (stops : Lexeme.operator (Token.renderAll
      (Node.setLeading (operand.wrapped operand.needsParens) "").tokens).toList = 0) :
    ∃ sign behind', (tokenize (Node.render (negated operand))).tokens = sign :: behind' ∧
      sign.kind = .operator ∧ sign.text = "!" ∧ spelling sign.trailing.toList behind' =
        spelling [] (Token.atomsOf
          (Node.setLeading (operand.wrapped operand.needsParens) "").tokens) := by
  obtain ⟨isGap, behind⟩ := argument.behind_sign given lone apart
  have spelled := (behind.consSign isGap stops).spelling
  rw [Token.atomsOf_cons, atoms_negationSign, List.singleton_append, ← tokens_negated] at spelled
  obtain ⟨sign, behind', tokens, isSign, -, spelled⟩ :=
    exists_of_spelling_cons (show "!" ≠ "" by decide) (whole_tokenize _) spelled
  exact ⟨sign, behind', tokens, isSign.kind.symm, isSign.text.symm, spelled⟩

/-- The negation of an argument is read again as one, if its operand stands in parentheses or begins
with no operator. -/
theorem Expr.IsArgumentAt.parse_negated
    (safe : operand.needsParens = true ∨ operand.startsWithOperator = false) :
    ∃ sign inner, Expr.parse (Node.render (negated operand)) = .prefixed sign inner ∧
      sign.text = "!" ∧ (Token.atomsOf inner.tokens).map Token.text =
        (Token.atomsOf
          (Node.setLeading (operand.wrapped operand.needsParens) "").tokens).map Token.text := by
  have behind := (argument.behind_sign given lone apart).2
  obtain ⟨sign, behind', tokens', kind, isSign, spelled⟩ :=
    argument.exists_sign given lone apart (argument.operator_eq_zero behind safe)
  obtain ⟨text, text_eq⟩ : ∃ text, text = Node.render (negated operand) := ⟨_, rfl⟩
  rw [← text_eq] at tokens' ⊢
  have whole := whole_tokenize text
  have proper : (tokenize text).endOfFile.kind = .endOfFile := rfl
  rw [tokens', Whole, List.forall_mem_cons] at whole
  have words := map_text_of_spelling behind.words whole.2 spelled
  rw [← words]
  -- Nothing that is not put in parentheses has operators at its top.
  have plain : operand.needsParens = false → operand.isMarked = false ∧ operand.operators = [] := by
    intro bare
    cases operand <;> first | exact ⟨rfl, rfl⟩ | cases bare
  obtain ⟨lead, later, rfl, touching, starts, fuel, inner, middle, rest, next, enough, read, readRest,
    texts, ended, ending⟩ := argument.reads_behind given (fuelFor (tokenize text)) proper rfl whole.2
      spelled (fun bare operator => absurd operator (by simpa [bare] using safe))
      fun bare => (plain bare).1
  obtain rfl : rest = [] := by
    refine List.map_eq_nil_iff.1 (texts.trans ?_)
    cases wraps : operand.needsParens with
    | true => rfl
    | false => exact (plain wraps).2
  obtain rfl := Parser.eq_of_terms_nil readRest
  obtain ⟨isExpr, atoms⟩ := parse_prefixed tokens' kind isSign (adjacent_iff.2 touching) starts
    (Nat.le_add_right_of_le enough) read ended ending
  exact ⟨sign, inner, isExpr, isSign, by rw [atoms]⟩

end Argument

/-- The operator and the operand of an expression with a prefix. -/
def Expr.prefix? : Expr → Option (Token × Expr)
  | .prefixed operator operand => some (operator, operand)
  | _ => none

theorem Expr.eq_prefixed_of_prefix? {expr operand : Expr} {operator : Token}
    (found : expr.prefix? = some (operator, operand)) : expr = .prefixed operator operand := by
  unfold prefix? at found
  split at found
  · obtain ⟨rfl, rfl⟩ := Prod.mk.inj (Option.some.inj found)
    rfl
  · cases found

/-- An operator that is bound to what stands before it is no prefix. -/
theorem Cursor.role_ne_before {cursor : Cursor} (bound : cursor.leftBound = true) :
    cursor.role ≠ .before := by
  rw [role, bound]
  cases cursor.rightBound <;> simp only [Bool.true_and] <;> split <;> try split
  all_goals exact OperatorRole.noConfusion

namespace Parser

variable {fuel : Nat} {position : Position} {cursor next : Cursor} {sign : Token} {operand : Expr}

/-- What has the prefix is the operand behind it. -/
theorem operand_of_unary (operator : cursor.isAt .operator = true)
    (given : Parser.unary fuel position cursor = some (.prefixed sign operand, next)) :
    sign = cursor.bump.1 ∧
      ∃ fuel, Parser.unary fuel position cursor.bump.2 = some (operand, next) := by
  cases fuel with
  | zero => cases given
  | succ fuel =>
    rcases unary_eq_some given with ⟨-, _, _, _, same, -⟩ | ⟨-, _, same, -⟩ | ⟨-, _, same, read⟩ |
      ⟨isPath, -⟩ | isPostfix
    · cases same
    · cases same
    · obtain ⟨rfl, rfl⟩ := Expr.prefixed.inj same
      exact ⟨rfl, fuel, read⟩
    · rw [Cursor.isAt, beq_iff_eq.1 operator] at isPath
      cases isPath
    · cases isPostfix

/-- Nothing is read where an operator stands that is no prefix. -/
theorem empty_of_unary (operator : cursor.isAt .operator = true) (role : cursor.role ≠ .before)
    (given : Parser.unary fuel position cursor = some (operand, next)) : operand = .empty := by
  have kind := beq_iff_eq.1 operator
  cases fuel with
  | zero => cases given
  | succ fuel =>
    rw [Parser.unary, get_bind, Cursor.atKeyword, Cursor.atKeyword, Token.isKeyword, Token.isKeyword,
      Cursor.atOperator, beq_eq_false_iff_ne.2 role, Bool.and_false, Cursor.isAt, kind] at given
    obtain ⟨root, middle, read, given⟩ := bind_eq_some given
    have none : root = .empty := by
      cases fuel with
      | zero => cases read
      | succ fuel =>
        rw [Parser.primary, ask_bind, kind] at read
        exact (pure_eq_some read).1
    rw [none] at given
    exact (pure_eq_some given).1

end Parser

/-- The expression with a prefix that a text spells is the first operand that is read from it. -/
theorem Expr.exists_unary_of_parse {text : String} {sign : Token} {operand : Expr}
    (parsed : Expr.parse text = .prefixed sign operand) : ∃ fuel next,
      Parser.unary fuel .free (.start (tokenize text)) = some (.prefixed sign operand, next) := by
  obtain ⟨fuel, more⟩ : ∃ fuel, fuelFor (tokenize text) = fuel + 1 :=
    Nat.exists_eq_succ_of_ne_zero (by rw [fuelFor]; omega)
  rw [Expr.parse, Expr.ofTokens] at parsed
  split at parsed
  · next expr rest read =>
    split at parsed
    · subst parsed
      obtain ⟨first, terms, middle, readFirst, -, -, isExpr⟩ :=
        Parser.expr_eq_some (more ▸ read) rfl
      unfold Expr.ofTerms at isExpr
      split at isExpr
      · exact ⟨_, middle, isExpr ▸ readFirst⟩
      · cases isExpr
    · cases parsed
  · cases parsed

section Argument

variable {source : String} {first last : Nat} {operand : Expr}

/-- Where an operand that begins with an operator stands behind the sign, the sign is read with it, or
has nothing behind it. -/
theorem Expr.IsArgumentAt.not_parse_negated (argument : operand.IsArgumentAt source first last)
    (given : Node.render (SourceFile.parse source) = source)
    (lone : ∀ token ∈ (tokenize source).tokens, Piece.isLone token.text.toList = false)
    (apart : StandApart (Token.atomsOf (negated operand).tokens) [])
    (bare : operand.needsParens = false) (operator : operand.startsWithOperator = true)
    {sign : Token} {inner : Expr}
    (parsed : Expr.parse (Node.render (negated operand)) = .prefixed sign inner)
    (isSign : sign.text = "!") : inner = .empty := by
  obtain ⟨fuel, next, read⟩ := Expr.exists_unary_of_parse parsed
  by_cases stops : Lexeme.operator (Token.renderAll
      (Node.setLeading (operand.wrapped operand.needsParens) "").tokens).toList = 0
  · -- The sign is read for itself, and the operator behind it touches it, so it is no prefix.
    obtain ⟨sign', behind', tokens', kind, -, spelled⟩ :=
      argument.exists_sign given lone apart stops
    obtain ⟨lead, later, tokens, -⟩ := argument.taken
    rw [bare, show operand.wrapped false = operand from rfl, argument.atomsOf_setLeading tokens]
      at spelled
    rw [argument.startsWithOperator tokens, beq_iff_eq] at operator
    have word : (lead.withLeading "").text ≠ "" := argument.words lead (tokens ▸ List.mem_cons_self)
    have whole := whole_tokenize (Node.render (negated operand))
    rw [tokens', Whole, List.forall_mem_cons] at whole
    obtain ⟨lead', later', rfl, like, gap, -⟩ := exists_of_spelling_cons word whole.2 spelled
    have gap : sign'.trailing.toList ++ lead'.leading.toList = [] := gap.symm
    have bound : adjacent (some sign') lead' = true := adjacent_iff.2 gap
    obtain ⟨-, fuel, readInner⟩ := Parser.operand_of_unary (by
      rw [Cursor.isAt, Cursor.peek, Cursor.start, tokens', List.headD_cons, kind]
      rfl) read
    rw [Cursor.bump_of_pending tokens'] at readInner
    refine Parser.empty_of_unary ?_ (Cursor.role_ne_before ?_) readInner
    · rw [Cursor.isAt, Cursor.peek, List.headD_cons, ← like.kind]
      exact beq_iff_eq.2 operator
    · rw [Cursor.leftBound, Cursor.atAdjacent, Cursor.peek, List.headD_cons, bound, Option.any_some,
        kind]
      rfl
  · -- The sign and the operator are one.
    obtain ⟨text, text_eq⟩ : ∃ text, (Token.renderAll
        (Node.setLeading (operand.wrapped operand.needsParens) "").tokens).toList = text := ⟨_, rfl⟩
    have head := head_words_of_operator (argument.behind_sign given lone apart).1 text_eq
    rw [← tokens_negated] at head
    change ((tokenize (Node.render (negated operand))).tokens.map _).head? = _ at head
    rw [text_eq] at stops
    cases tokens' : (tokenize (Node.render (negated operand))).tokens with
    | nil =>
      rw [tokens'] at head
      cases head
    | cons first later =>
      rw [tokens', List.map_cons, List.head?_cons, Option.some.injEq] at head
      obtain ⟨kind, isText⟩ := Prod.mk.inj head
      obtain ⟨isFirst, -⟩ := Parser.operand_of_unary (by
        rw [Cursor.isAt, Cursor.peek, Cursor.start, tokens', List.headD_cons, kind]
        rfl) read
      rw [isFirst, Cursor.bump, Cursor.start, tokens'] at isSign
      have same : ['!'] = _ := congrArg String.toList (isSign.symm.trans isText)
      rw [String.toList_ofList] at same
      have none : text.take (Lexeme.operator text) = [] := (List.cons.inj same).2.symm
      rw [← List.length_take_of_le (operator_le text), none] at stops
      exact absurd rfl stops

/-- The negation of an argument applies to the whole of it, read again, just where the argument is put
in parentheses or begins with no operator: then the text of the negation is an expression with the
sign as its prefix, and the words behind the sign are those of the argument. This holds for a source
that is given back, if each token of the negation can be written in front of the next one. A single
backquote or number sign is left out. -/
theorem negation_applies_iff (argument : operand.IsArgumentAt source first last)
    (given : Node.render (SourceFile.parse source) = source)
    (lone : ∀ token ∈ (tokenize source).tokens, Piece.isLone token.text.toList = false)
    (apart : StandApart (Token.atomsOf (negated operand).tokens) []) :
    (∃ sign inner, (Expr.parse (Node.render (negated operand))).prefix? = some (sign, inner) ∧
      sign.text = "!" ∧ (Token.atomsOf inner.tokens).map Token.text =
        (Token.atomsOf (operand.wrapped operand.needsParens).tokens).map Token.text) ↔
      operand.needsParens = true ∨ operand.startsWithOperator = false := by
  constructor
  · rintro ⟨sign, inner, found, isSign, words⟩
    by_contra unsafe_
    rw [not_or, Bool.not_eq_true, Bool.not_eq_false] at unsafe_
    obtain ⟨bare, operator⟩ := unsafe_
    have none := argument.not_parse_negated given lone apart bare operator
      (Expr.eq_prefixed_of_prefix? found) isSign
    obtain ⟨lead, later, tokens, -⟩ := argument.taken
    rw [none, bare, show operand.wrapped false = operand from rfl, tokens] at words
    cases words
  · intro safe
    obtain ⟨sign, inner, parsed, isSign, words⟩ := argument.parse_negated given lone apart safe
    refine ⟨sign, inner, by rw [parsed]; rfl, isSign, words.trans ?_⟩
    have moved : (Node.setLeading (operand.wrapped operand.needsParens) "").tokens =
        modifyFirst (·.withLeading "") (operand.wrapped operand.needsParens).tokens :=
      Node.tokens_setLeading (operand.wrapped operand.needsParens) ""
    rw [moved]
    exact Token.map_text_modifyFirst (operand.whole_wrapped argument.whole _) ""

/-- The negation of the comparison in `XCTAssertFalse(a == b)` applies to the whole of it. -/
theorem negation_applies_to_comparison : ∃ operand : Expr,
    operand.IsArgumentAt "XCTAssertFalse(a == b)" 2 5 ∧
      ∃ sign inner, (Expr.parse (Node.render (negated operand))).prefix? = some (sign, inner) ∧
        sign.text = "!" ∧ (Token.atomsOf inner.tokens).map Token.text =
          (Token.atomsOf (operand.wrapped operand.needsParens).tokens).map Token.text := by
  obtain ⟨⟨operand, next⟩, read, rfl, nonempty, whole, closed, apart, parens⟩ : ∃ result ∈
      Parser.expr (fuelFor (tokenize "XCTAssertFalse(a == b)")) .free
        ((tokenize "XCTAssertFalse(a == b)").cursorAt 2),
      result.2 = (tokenize "XCTAssertFalse(a == b)").cursorAt 5 ∧ result.1.isEmpty = false ∧
        Whole result.1.tokens ∧ closesGroups (Token.atomsOf result.1.tokens) = true ∧
        StandApart (Token.atomsOf (negated result.1).tokens) [] ∧ result.1.needsParens = true := by
    decide +kernel
  have argument : operand.IsArgumentAt "XCTAssertFalse(a == b)" 2 5 :=
    { read := read, behind := by decide +kernel, unlabelled := by decide +kernel,
      ahead := by decide +kernel, nonempty := nonempty, whole := whole, closed := closed }
  exact ⟨operand, argument, (negation_applies_iff argument (by decide +kernel) (by decide +kernel)
    apart).2 (.inl parens)⟩

end Argument

/-- In `XCTAssertFalse(!x)` the sign of the negation and the one in front of `x` become one operator. -/
theorem negation_merges :
    ∃ statement ∈ (SourceFile.parse "XCTAssertFalse(!x)").statements, ∃ parts ∈ statement.call?,
      ∃ argument ∈ parts.2.1.arguments,
        argument.value.isEmpty = false ∧ Node.render (negated argument.value) = "!!x" ∧
          ∃ read ∈ (Expr.parse (Node.render (negated argument.value))).prefix?,
            read.1.text = "!!" ∧ read.2.tokens.map Token.text = ["x"] := by
  decide +kernel

end Negation

end SuiteMigration
