import SuiteMigration.Proofs.Reading.Locality

/-!
# An operand in two places

An operand that ends where the way does is read in both streams up to there, with like answers, if no
token of it is missing: then each of its delimiters is on the way, and what is between them is read in
lockstep. An operator that comes behind the way in the second stream is left alone by an operand that
does not end in a marked one.

Each way of reading an operand has its own lemma: one for each kind of suffix, one for each mark, and
one for each kind of token that an operand may begin with. From these a step of fuel follows.

## Main definitions

* `Parser.AllReach` - the functions of the grammar that read an operand come to the end of the way

## Main results

* `Parser.AllReach.reach_part` - a part behind an operand, with the suffixes behind it
* `Parser.AllReach.reach_marked` - an operand behind a mark
* `Parser.allReach` - with every amount of fuel the end of the way is reached
-/

namespace SuiteMigration

variable {passage : Passage} {cursor cursor' next : Cursor}

namespace Parser

/-! ### The end of the way -/

/-- With the given fuel the functions that read an operand come to the end of the way. -/
structure AllReach (passage : Passage) (fuel : Nat) : Prop where
  expr : ∀ {cursor cursor' next : Cursor} {answer : Expr} position, Level passage cursor cursor' →
    Parser.expr fuel position cursor = some (answer, next) → Whole answer.tokens →
    passage.stop.left ≤ next.left → passage.Settles next ∨ answer.isEmpty = true →
    ∃ answer' next', Parser.expr fuel position cursor' = some (answer', next') ∧
      answer.Same answer' ∧
      (Abreast passage next next' ∨ answer.isEmpty = true ∧ next = cursor ∧ next' = cursor')
  terms : ∀ {cursor cursor' next : Cursor} {answer : List OperatorTerm} position ternaries,
    Abreast passage cursor cursor' →
    Parser.terms fuel position ternaries cursor = some (answer, next) →
    Whole (tokensOfTerms answer) → passage.stop.left ≤ next.left → passage.Settles next →
    ∃ answer' next', Parser.terms fuel position ternaries cursor' = some (answer', next') ∧
      (answer.map fun term => term.operator.text) = (answer'.map fun term => term.operator.text) ∧
      Abreast passage next next'
  unary : ∀ {cursor cursor' next : Cursor} {answer : Expr} position, Level passage cursor cursor' →
    Parser.unary fuel position cursor = some (answer, next) → Whole answer.tokens →
    passage.stop.left ≤ next.left → passage.Settles next ∨ answer.takesOperator = false →
    ∃ answer' next', Parser.unary fuel position cursor' = some (answer', next') ∧
      answer.Same answer' ∧
      (Abreast passage next next' ∨ answer.isEmpty = true ∧ next = cursor ∧ next' = cursor')
  primary : ∀ {cursor cursor' next : Cursor} {answer : Expr} position,
    Level passage cursor cursor' → Parser.primary fuel position cursor = some (answer, next) →
    Whole answer.tokens → passage.stop.left ≤ next.left →
    ∃ answer' next', Parser.primary fuel position cursor' = some (answer', next') ∧
      answer.Same answer' ∧
      (Abreast passage next next' ∨ answer.isEmpty = true ∧ next = cursor ∧ next' = cursor')
  suffixes : ∀ {cursor cursor' next : Cursor} {base base' answer : Expr} position,
    Abreast passage cursor cursor' → base.Same base' →
    Parser.suffixes fuel position base cursor = some (answer, next) → Whole answer.tokens →
    passage.stop.left ≤ next.left →
    ∃ answer' next', Parser.suffixes fuel position base' cursor' = some (answer', next') ∧
      answer.Same answer' ∧ Abreast passage next next'
  argumentList : ∀ {cursor cursor' next : Cursor} {answer : ArgumentList} closer,
    Level passage cursor cursor' → passage.Inside cursor → closer.isClosing = true →
    Parser.argumentList fuel closer cursor = some (answer, next) → Whole answer.tokens →
    passage.stop.left ≤ next.left →
    ∃ answer' next', Parser.argumentList fuel closer cursor' = some (answer', next') ∧
      Abreast passage next next'
  collection : ∀ {cursor cursor' next : Cursor} {answer : Expr},
    Level passage cursor cursor' → passage.Inside cursor →
    Parser.collection fuel cursor = some (answer, next) → Whole answer.tokens →
    passage.stop.left ≤ next.left →
    ∃ answer' next', Parser.collection fuel cursor' = some (answer', next') ∧
      answer.Same answer' ∧ Abreast passage next next'
  closure : ∀ {cursor cursor' next : Cursor} {answer : Closure},
    Level passage cursor cursor' → passage.Inside cursor → cursor.isAt .leftBrace = true →
    Parser.closure fuel cursor = some (answer, next) → Whole answer.tokens →
    passage.stop.left ≤ next.left →
    ∃ answer' next', Parser.closure fuel cursor' = some (answer', next') ∧
      Abreast passage next next'

namespace AllReach

variable {fuel : Nat} (ends : passage.Ends) (grammar : AllReach passage fuel)

section Lists

include ends

theorem argumentList_succ {answer : ArgumentList} (closer : TokenKind)
    (level : Level passage cursor cursor') (inside : passage.Inside cursor)
    (closing : closer.isClosing = true)
    (given : Parser.argumentList (fuel + 1) closer cursor = some (answer, next))
    (whole : Whole answer.tokens) (reaches : passage.stop.left ≤ next.left) :
    ∃ answer' next', Parser.argumentList (fuel + 1) closer cursor' = some (answer', next') ∧
      Abreast passage next next' := by
  rw [Parser.argumentList, bump_bind] at given
  obtain ⟨arguments, third, readArguments, given⟩ := bind_eq_some given
  obtain ⟨token, last, readCloser, given⟩ := bind_eq_some given
  obtain ⟨rfl, rfl⟩ := pure_eq_some given
  have word : token.text ≠ "" := whole token (by simp [ArgumentList.tokens])
  have abreast := (level.bump inside).2
  obtain ⟨arguments', third', token', last', readArguments', -, readCloser', abreast'⟩ := closedBy ends
    closing (((allMirrors ends fuel).arguments closer).everywhere abreast) readArguments readCloser
    word reaches
  refine ⟨⟨cursor'.bump.1, arguments', token'⟩, last', ?_, abreast'⟩
  rw [Parser.argumentList, bump_bind, bind_apply readArguments', bind_apply readCloser']
  rfl

theorem closure_succ {answer : Closure} (level : Level passage cursor cursor')
    (inside : passage.Inside cursor) (brace : cursor.isAt .leftBrace = true)
    (given : Parser.closure (fuel + 1) cursor = some (answer, next)) (whole : Whole answer.tokens)
    (reaches : passage.stop.left ≤ next.left) :
    ∃ answer' next', Parser.closure (fuel + 1) cursor' = some (answer', next') ∧
      Abreast passage next next' := by
  rw [Parser.closure, bump_bind] at given
  obtain ⟨signature, third, readSignature, given⟩ := bind_eq_some given
  obtain ⟨statements, fourth, readStatements, given⟩ := bind_eq_some given
  obtain ⟨token, last, readCloser, given⟩ := bind_eq_some given
  obtain ⟨rfl, rfl⟩ := pure_eq_some given
  have word : token.text ≠ "" := whole token (by simp [Closure.tokens])
  have abreast := (level.bump inside).2
  obtain ⟨first, later, _, _, -, pending, -⟩ := level.inside inside
  have opening : first.kind.isOpening = true := by
    rw [Cursor.isAt, Cursor.peek, pending, List.headD_cons, beq_iff_eq] at brace
    rw [brace]
    rfl
  -- Behind its brace the closure is enclosed: its end must come before the stop.
  have within : passage.Within cursor.bump.2 cursor'.bump.2 :=
    ⟨abreast, ends.encloses abreast (by rw [Cursor.bump_of_pending pending]) opening⟩
  -- The signature and the statements are read as one, up to the closing brace.
  have both : MirrorsAt passage cursor.bump.2 cursor'.bump.2
      (closureSignature? >>= fun signature =>
        (fun statements => (signature, statements)) <$> Parser.statements fuel)
      (closureSignature? >>= fun signature =>
        (fun statements => (signature, statements)) <$> Parser.statements fuel) Any :=
    (mirrorsAt_closureSignature ends within).bind (fun _ => trivial) fun _ _ _ =>
      (allMirrors ends fuel).statements.mapAny
  obtain ⟨⟨signature', statements'⟩, fourth', token', last', readBoth', -, readCloser', abreast'⟩ :=
    closedBy ends rfl both ((bind_apply readSignature).trans (map_apply readStatements)) readCloser
      word reaches
  obtain ⟨signature', third', readSignature', given'⟩ := bind_eq_some readBoth'
  obtain ⟨statements', readStatements', same⟩ := map_eq_some given'
  obtain ⟨rfl, rfl⟩ := Prod.mk.inj same
  refine ⟨⟨cursor'.bump.1, signature', statements', token'⟩, last', ?_, abreast'⟩
  rw [Parser.closure, bump_bind, bind_apply readSignature', bind_apply readStatements',
    bind_apply readCloser']
  rfl

theorem collection_succ {answer : Expr} (level : Level passage cursor cursor')
    (inside : passage.Inside cursor)
    (given : Parser.collection (fuel + 1) cursor = some (answer, next)) (whole : Whole answer.tokens)
    (reaches : passage.stop.left ≤ next.left) :
    ∃ answer' next', Parser.collection (fuel + 1) cursor' = some (answer', next') ∧
      answer.Same answer' ∧ Abreast passage next next' := by
  rw [Parser.collection, bump_bind, ask_bind] at given
  have abreast := (level.bump inside).2
  have second := Level.later abreast
  have notStop := ends.kind_ne .rightBracket TokenKind.noConfusion TokenKind.noConfusion
  have atColon : cursor.bump.2.isAt .colon = true → passage.Inside cursor.bump.2 := by
    intro colon
    by_contra outside
    rw [Cursor.isAt, (abreast.peek_stop outside).1] at colon
    exact Bool.noConfusion (colon.symm.trans
      (ends.kind_ne _ TokenKind.noConfusion TokenKind.noConfusion))
  -- The empty dictionary is told by two tokens, of which the second may lie behind the way.
  have same : (cursor.bump.2.isAt .colon && cursor.bump.2.second.kind == .rightBracket) =
      (cursor'.bump.2.isAt .colon && cursor'.bump.2.second.kind == .rightBracket) := by
    rw [← second.isAt_eq ends .colon (by decide)]
    cases colon : cursor.bump.2.isAt .colon with
    | false => rfl
    | true =>
      exact second.test_second (atColon colon) (fun token => token.kind == .rightBracket)
        (fun _ _ like => by rw [like.kind]) notStop
        (ends.kind_ne' _ TokenKind.noConfusion TokenKind.noConfusion TokenKind.noConfusion)
  rw [Parser.collection, bump_bind, ask_bind]
  rw [← same]
  split at given
  · next dictionary =>
    rw [if_pos dictionary]
    obtain ⟨rfl, rfl⟩ := pure_eq_some given
    rw [Bool.and_eq_true] at dictionary
    have inside := atColon dictionary.1
    have third := (abreast.bump inside).2
    have fourth := (third.bump (second.inside_bump inside
      (fun token => token.kind == .rightBracket) dictionary.2 notStop)).2
    exact ⟨_, _, rfl, ⟨.raw (by simp), rfl⟩, fourth⟩
  · next list =>
    rw [if_neg list]
    obtain ⟨elements, third, readElements, given⟩ := bind_eq_some given
    obtain ⟨token, last, readCloser, given⟩ := bind_eq_some given
    obtain ⟨rfl, rfl⟩ := pure_eq_some given
    have word : token.text ≠ "" := whole token (by simp [Expr.tokens])
    obtain ⟨elements', third', token', last', readElements', -, readCloser', abreast'⟩ :=
      closedBy ends rfl ((allMirrors ends fuel).elements.everywhere abreast) readElements readCloser
        word reaches
    rw [bind_apply readElements', bind_apply readCloser']
    exact ⟨_, _, rfl, ⟨.collection .., rfl⟩, abreast'⟩

end Lists

/-! #### Operands -/

/-- What has been read stays in front of the suffixes. -/
theorem prefix_suffixes (fuel : Nat) {position : Position} {base answer : Expr}
    (given : Parser.suffixes fuel position base cursor = some (answer, next)) :
    base.tokens <+: answer.tokens := by
  induction fuel generalizing base cursor with
  | zero => cases given
  | succ fuel ih =>
    -- Each suffix makes a larger base, whose tokens begin with those of the base before.
    have grows {larger : Expr} {middle : Cursor} (more : base.tokens <+: larger.tokens)
        (given : Parser.suffixes fuel position larger middle = some (answer, next)) :
        base.tokens <+: answer.tokens :=
      more.trans (ih given)
    rw [Parser.suffixes, get_bind] at given
    split at given
    · exact grows (by simp [Expr.tokens, tokensOfExpr?]) given
    split at given
    · obtain ⟨arguments, middle, -, given⟩ := bind_eq_some given
      exact grows (by simp [Expr.tokens]) given
    split at given
    · obtain ⟨arguments, middle, -, given⟩ := bind_eq_some given
      exact grows (by simp [Expr.tokens]) given
    split at given
    · next brace =>
      obtain ⟨closure, middle, -, given⟩ := bind_eq_some given
      rw [Bool.and_eq_true] at brace
      exact grows (by simp [Expr.tokens_withClosure brace.2]) given
    split at given
    · exact grows (by simp [Expr.tokens]) given
    cases generics : cursor.genericArguments? with
    | some length =>
      rw [generics] at given
      exact grows (by simp [Expr.tokens]) given
    | none =>
      rw [generics] at given
      obtain ⟨rfl, -⟩ := pure_eq_some given
      exact List.prefix_rfl

/-- Whatever stands in front of the suffixes is whole with them. -/
theorem wholeRoot {position : Position} {base answer : Expr}
    (given : Parser.suffixes fuel position base cursor = some (answer, next))
    (whole : Whole answer.tokens) : Whole base.tokens :=
  fun token member => whole token ((prefix_suffixes fuel given).mem member)

theorem left_le {position : Position} {base answer : Expr}
    (given : Parser.suffixes fuel position base cursor = some (answer, next)) :
    next.left ≤ cursor.left :=
  ((allForward fuel).suffixes position base _ _ _ given).suffix.length_le

section Suffixes

variable {base base' answer : Expr} {position : Position}

include grammar in
/-- A part behind an operand that is read in both streams, with the suffixes behind it. -/
theorem reach_part {α : Type} {p : Parser α} {make make' : α → Expr}
    (given : (p >>= fun part => Parser.suffixes fuel position (make part)) cursor =
      some (answer, next))
    (whole : Whole answer.tokens) (reaches : passage.stop.left ≤ next.left)
    (reads : ∀ part middle, p cursor = some (part, middle) → Whole (make part).tokens →
      passage.stop.left ≤ middle.left → ∃ part' middle', p cursor' = some (part', middle') ∧
        (make part).Same (make' part') ∧ Abreast passage middle middle') :
    ∃ answer' next', (p >>= fun part => Parser.suffixes fuel position (make' part)) cursor' =
      some (answer', next') ∧ answer.Same answer' ∧ Abreast passage next next' := by
  obtain ⟨part, middle, readPart, given⟩ := bind_eq_some given
  -- What is read on the way to the last suffix is whole and ends on the way.
  obtain ⟨part', middle', readPart', same, abreast⟩ := reads part middle readPart
    (wholeRoot given whole) (Nat.le_trans reaches (left_le given))
  rw [bind_apply readPart']
  exact grammar.suffixes position abreast same given whole reaches

include grammar in
/-- Arguments behind an operand are read in both streams. -/
theorem reach_arguments {closer : TokenKind} {make make' : ArgumentList → Expr}
    (level : Level passage cursor cursor') (inside : passage.Inside cursor)
    (closing : closer.isClosing = true)
    (owns : ∀ list, list.tokens ⊆ (make list).tokens)
    (alike : ∀ list list', (make list).Same (make' list'))
    (given : (Parser.argumentList fuel closer >>= fun list =>
      Parser.suffixes fuel position (make list)) cursor = some (answer, next))
    (whole : Whole answer.tokens) (reaches : passage.stop.left ≤ next.left) :
    ∃ answer' next', (Parser.argumentList fuel closer >>= fun list =>
        Parser.suffixes fuel position (make' list)) cursor' = some (answer', next') ∧
      answer.Same answer' ∧ Abreast passage next next' := by
  refine grammar.reach_part given whole reaches ?_
  intro list middle readList wholeList reachesList
  obtain ⟨list', middle', readList', abreast⟩ := grammar.argumentList closer level inside closing
    readList (fun token member => wholeList token (owns list member)) reachesList
  exact ⟨list', middle', readList', alike list list', abreast⟩

variable (level : Level passage cursor cursor')

include ends grammar

include level in
/-- A member is read in both streams. -/
theorem reach_member (here : cursor.atMember = true)
    (given : (bump >>= fun period => bump >>= fun name =>
      Parser.suffixes fuel position (.member (some base) period name)) cursor = some (answer, next))
    (whole : Whole answer.tokens) (reaches : passage.stop.left ≤ next.left) :
    ∃ answer' next', (bump >>= fun period => bump >>= fun name =>
        Parser.suffixes fuel position (.member (some base') period name)) cursor' =
      some (answer', next') ∧ answer.Same answer' ∧ Abreast passage next next' := by
  rw [bump_bind, bump_bind] at given ⊢
  rw [Cursor.atMember, Bool.and_eq_true] at here
  have inside := level.inside_of_isAt ends here.1 (by decide)
  have second := level.inside_bump inside (fun token =>
    [TokenKind.identifier, .number, .poundIdentifier].contains token.kind) here.2
    (by rcases ends.kind with kind | kind <;> simp [kind])
  refine grammar.suffixes position ((level.bump inside).2.bump second).2 ?_ given whole reaches
  exact ⟨.member .., rfl⟩

include level in
/-- A closure behind an operand is read in both streams. -/
theorem reach_trailingClosure (same : base.Same base') (brace : cursor.isAt .leftBrace = true)
    (accepts : base.acceptsClosure = true)
    (given : (Parser.closure fuel >>= fun closure =>
      Parser.suffixes fuel position (base.withClosure closure)) cursor = some (answer, next))
    (whole : Whole answer.tokens) (reaches : passage.stop.left ≤ next.left) :
    ∃ answer' next', (Parser.closure fuel >>= fun closure =>
        Parser.suffixes fuel position (base'.withClosure closure)) cursor' =
      some (answer', next') ∧ answer.Same answer' ∧ Abreast passage next next' := by
  refine grammar.reach_part given whole reaches ?_
  intro closure middle readClosure wholeClosure reachesClosure
  obtain ⟨closure', middle', readClosure', abreast⟩ := grammar.closure level
    (level.inside_of_isAt ends brace (by decide)) brace readClosure
    (fun token member => wholeClosure token (by simp [Expr.tokens_withClosure accepts, member]))
    reachesClosure
  exact ⟨closure', middle', readClosure', same.withClosure accepts closure closure', abreast⟩

/-- Generic arguments are read in both streams, or the operand ends. -/
theorem reach_generics (abreast : Abreast passage cursor cursor') (same : base.Same base')
    (given : (match cursor.genericArguments? with
      | some length => run (fun _ => length) >>= fun arguments =>
          Parser.suffixes fuel position (.specialized base arguments)
      | none => pure base) cursor = some (answer, next))
    (whole : Whole answer.tokens) (reaches : passage.stop.left ≤ next.left) :
    ∃ answer' next', (match cursor'.genericArguments? with
      | some length => run (fun _ => length) >>= fun arguments =>
          Parser.suffixes fuel position (.specialized base' arguments)
      | none => pure base') cursor' = some (answer', next') ∧
      answer.Same answer' ∧ Abreast passage next next' := by
  -- The arguments end on the way, so the other stream has as many tokens for them.
  have within {length : Nat} (found : cursor.genericArguments? = some length) :
      length + passage.stop.left ≤ cursor.left := by
    rw [found] at given
    simp only [run_bind] at given
    have enough := Nat.le_trans reaches (left_le given)
    have rest := List.length_pos_iff.2 ends.rest
    rw [Cursor.left_skip] at enough
    simp only [Cursor.left] at *
    omega
  rw [abreast.genericArguments?_eq ends fun _ => within]
  cases generics : cursor.genericArguments? with
  | none =>
    rw [generics] at given
    obtain ⟨rfl, rfl⟩ := pure_eq_some given
    exact ⟨base', cursor', rfl, same, abreast⟩
  | some length =>
    rw [generics] at given
    simp only [run_bind] at given ⊢
    have fits := within generics
    have all := abreast.left_eq
    refine grammar.suffixes position (abreast.skip fits) ⟨same.toLike.specialized ?_, rfl⟩ given
      whole reaches
    simp only [Cursor.left] at fits all
    rw [← List.length_eq_zero_iff, ← List.length_eq_zero_iff, Cursor.take, Cursor.take,
      List.length_take, List.length_take]
    omega

theorem suffixes_succ (position : Position) (abreast : Abreast passage cursor cursor')
    (same : base.Same base')
    (given : Parser.suffixes (fuel + 1) position base cursor = some (answer, next))
    (whole : Whole answer.tokens) (reaches : passage.stop.left ≤ next.left) :
    ∃ answer' next', Parser.suffixes (fuel + 1) position base' cursor' = some (answer', next') ∧
      answer.Same answer' ∧ Abreast passage next next' := by
  have level := Level.later abreast
  rw [Parser.suffixes, get_bind] at given
  rw [Parser.suffixes, get_bind, ← level.atMember_eq ends, ← abreast.opens_eq ends _ (by decide),
    ← abreast.opens_eq ends _ (by decide), ← abreast.opensClosure_eq ends, ← same.acceptsClosure,
    ← level.atOperator_eq ends (by decide)]
  split at given
  · next member =>
    rw [if_pos member]
    exact grammar.reach_member ends level member given whole reaches
  next notMember =>
  rw [if_neg notMember]
  split at given
  · next paren =>
    rw [if_pos paren]
    rw [Bool.and_eq_true] at paren
    exact grammar.reach_arguments level (level.inside_of_isAt ends paren.1 (by decide)) rfl
      (fun _ _ member => by simp [Expr.tokens, member]) (fun _ _ => ⟨.call .., rfl⟩) given whole
      reaches
  next notParen =>
  rw [if_neg notParen]
  split at given
  · next bracket =>
    rw [if_pos bracket]
    rw [Bool.and_eq_true] at bracket
    exact grammar.reach_arguments level (level.inside_of_isAt ends bracket.1 (by decide)) rfl
      (fun _ _ member => by simp [Expr.tokens, member]) (fun _ _ => ⟨.index .., rfl⟩) given whole
      reaches
  next notBracket =>
  rw [if_neg notBracket]
  split at given
  · next brace =>
    rw [if_pos brace]
    simp only [Bool.and_eq_true] at brace
    exact grammar.reach_trailingClosure ends level same brace.1.1.1 brace.2 given whole reaches
  next notBrace =>
  rw [if_neg notBrace]
  split at given
  · next operator =>
    rw [if_pos operator]
    rw [bump_bind] at given ⊢
    rw [Cursor.atOperator, Bool.and_eq_true] at operator
    have inside := level.inside_of_isAt ends operator.1 (by decide)
    refine grammar.suffixes position (level.bump inside).2 ?_ given whole reaches
    exact ⟨.suffixed .., rfl⟩
  next notOperator =>
  rw [if_neg notOperator]
  exact grammar.reach_generics ends abreast same given whole reaches

end Suffixes

section Operands

variable {answer : Expr} {position : Position}

/-! #### Operands without suffixes -/

/-- A single token is read in both streams. -/
theorem reach_token {make : Token → Expr} (level : Level passage cursor cursor')
    (inside : passage.Inside cursor)
    (alike : ∀ token token', token.Like token' → (make token).Same (make token'))
    (given : (make <$> bump) cursor = some (answer, next)) :
    ∃ answer' next', (make <$> bump) cursor' = some (answer', next') ∧ answer.Same answer' ∧
      (Abreast passage next next' ∨ answer.isEmpty = true ∧ next = cursor ∧ next' = cursor') := by
  obtain ⟨like, abreast⟩ := level.bump inside
  obtain ⟨token, readToken, rfl⟩ := map_eq_some given
  obtain ⟨rfl, rfl⟩ := Prod.mk.inj (Option.some.inj readToken)
  exact ⟨_, _, rfl, alike _ _ like, .inl abreast⟩

/-- Nothing is read in either stream. -/
theorem reach_nothing (given : (pure .empty : Parser Expr) cursor = some (answer, next)) :
    ∃ answer' next', (pure .empty : Parser Expr) cursor' = some (answer', next') ∧
      answer.Same answer' ∧
      (Abreast passage next next' ∨ answer.isEmpty = true ∧ next = cursor ∧ next' = cursor') := by
  obtain ⟨rfl, rfl⟩ := pure_eq_some given
  exact ⟨_, _, rfl, .refl _, .inr ⟨rfl, rfl, rfl⟩⟩

section

include ends

/-- A member without a base is read in both streams. -/
theorem reach_implicitMember (level : Level passage cursor cursor') (inside : passage.Inside cursor)
    (given : (bump >>= fun period =>
      bumpIf (fun cursor => cursor.isAt .identifier || cursor.isAt .number) >>= fun name =>
        pure (Expr.member none period (name.getD (.missing .identifier)))) cursor =
      some (answer, next)) :
    ∃ answer' next', (bump >>= fun period =>
        bumpIf (fun cursor => cursor.isAt .identifier || cursor.isAt .number) >>= fun name =>
          pure (Expr.member none period (name.getD (.missing .identifier)))) cursor' =
      some (answer', next') ∧ answer.Same answer' ∧ Abreast passage next next' := by
  obtain ⟨-, abreast⟩ := level.bump inside
  rw [bump_bind] at given ⊢
  obtain ⟨name, last, readName, given⟩ := bind_eq_some given
  obtain ⟨rfl, rfl⟩ := pure_eq_some given
  have second := Level.later abreast
  have same := congrArg₂ (· || ·) (second.isAt_eq ends .identifier (by decide))
    (second.isAt_eq ends .number (by decide))
  obtain ⟨name', last', readName', -, abreast'⟩ := reach_bumpIf abreast same (fun here =>
    (Bool.or_eq_true _ _ ▸ here).elim (second.inside_of_isAt ends · (by decide))
      (second.inside_of_isAt ends · (by decide))) readName
  rw [bind_apply readName']
  exact ⟨_, _, rfl, ⟨.member .., rfl⟩, abreast'⟩

/-- Behind the way no operand begins in either stream. -/
theorem primary_behind (level : Level passage cursor cursor') (outside : ¬ passage.Inside cursor)
    (given : Parser.primary (fuel + 1) position cursor = some (answer, next)) :
    ∃ answer' next', Parser.primary (fuel + 1) position cursor' = some (answer', next') ∧
      answer.Same answer' ∧ Abreast passage next next' := by
  obtain ⟨_, _, _, _, here, -⟩ | ⟨-, abreast⟩ := level.cases
  · exact absurd here outside
  obtain ⟨isStop, isStop'⟩ := abreast.peek_stop outside
  rw [Parser.primary, ask_bind] at given ⊢
  have read : answer = .empty ∧ next = cursor := by
    rw [isStop] at given
    rcases ends.kind with kind | kind <;>
    · rw [kind] at given
      exact pure_eq_some given
  obtain ⟨rfl, rfl⟩ := read
  refine ⟨.empty, cursor', ?_, .refl _, abreast⟩
  rw [isStop']
  rcases ends.kind' with kind | kind | kind <;> rw [kind] <;> rfl

end

include ends grammar in
theorem primary_succ (position : Position) (level : Level passage cursor cursor')
    (given : Parser.primary (fuel + 1) position cursor = some (answer, next))
    (whole : Whole answer.tokens) (reaches : passage.stop.left ≤ next.left) :
    ∃ answer' next', Parser.primary (fuel + 1) position cursor' = some (answer', next') ∧
      answer.Same answer' ∧
      (Abreast passage next next' ∨ answer.isEmpty = true ∧ next = cursor ∧ next' = cursor') := by
  by_cases inside : passage.Inside cursor
  case neg =>
    obtain ⟨answer', next', given', same, abreast⟩ := primary_behind ends level inside given
    exact ⟨answer', next', given', same, .inl abreast⟩
  have like := level.peek_like inside
  rw [Parser.primary, ask_bind] at given
  rw [Parser.primary, ask_bind, ← like.kind, ← like.text, ← like.isReserved]
  -- The kind of the token decides what is read.
  cases kind : cursor.peek.kind
  all_goals rw [kind] at given
  all_goals simp only at given ⊢
  case identifier =>
    split at given
    · next literal =>
      rw [if_pos literal]
      exact reach_token level inside (fun _ _ _ => ⟨.literal .., rfl⟩) given
    next notLiteral =>
    rw [if_neg notLiteral]
    split at given
    · next reserved =>
      rw [if_pos reserved]
      exact reach_nothing given
    · next free =>
      rw [if_neg free]
      exact reach_token level inside (fun _ _ like => ⟨.identifier like, rfl⟩) given
  case poundIdentifier =>
    exact reach_token level inside (fun _ _ like => ⟨.identifier like, rfl⟩) given
  case number | stringLiteral =>
    exact reach_token level inside (fun _ _ _ => ⟨.literal .., rfl⟩) given
  case leftParen =>
    obtain ⟨list, readList, rfl⟩ := map_eq_some given
    obtain ⟨list', next', readList', abreast⟩ := grammar.argumentList _ level inside rfl readList
      whole reaches
    exact ⟨_, _, map_apply readList', ⟨.tuple .., rfl⟩, .inl abreast⟩
  case leftBracket =>
    obtain ⟨answer', next', given', same, abreast⟩ := grammar.collection level inside given whole
      reaches
    exact ⟨_, _, given', same, .inl abreast⟩
  case leftBrace =>
    have brace : cursor.isAt .leftBrace = true := by rw [Cursor.isAt, kind, beq_self_eq_true]
    split at given
    · next free =>
      rw [if_pos free]
      obtain ⟨closure, readClosure, rfl⟩ := map_eq_some given
      obtain ⟨closure', next', readClosure', abreast⟩ := grammar.closure level inside brace
        readClosure whole reaches
      exact ⟨_, _, map_apply readClosure', ⟨.closure .., rfl⟩, .inl abreast⟩
    · next head =>
      rw [if_neg head]
      exact reach_nothing given
  case period =>
    obtain ⟨answer', next', given', same, abreast⟩ := reach_implicitMember ends level inside given
    exact ⟨answer', next', given', same, .inl abreast⟩
  all_goals exact reach_nothing given

/-! #### Operands with marks and suffixes -/

/-- An operand behind a mark that has been read in both streams. -/
theorem reach_marked {p : Parser Expr} {make make' : Expr → Expr}
    (abreast : Abreast passage cursor cursor')
    (alike : ∀ operand operand', operand.Same operand' → (make operand).Same (make' operand'))
    (given : (p >>= fun operand => pure (make operand)) cursor = some (answer, next))
    (reads : ∀ operand, p cursor = some (operand, next) → answer = make operand →
      ∃ operand' next', p cursor' = some (operand', next') ∧ operand.Same operand' ∧
        (Abreast passage next next' ∨ operand.isEmpty = true ∧ next = cursor ∧ next' = cursor')) :
    ∃ answer' next', (p >>= fun operand => pure (make' operand)) cursor' = some (answer', next') ∧
      answer.Same answer' ∧ Abreast passage next next' := by
  obtain ⟨operand, last, readOperand, given⟩ := bind_eq_some given
  obtain ⟨rfl, rfl⟩ := pure_eq_some given
  obtain ⟨operand', last', readOperand', same, moved⟩ := reads operand readOperand rfl
  rw [bind_apply readOperand']
  refine ⟨_, _, rfl, alike _ _ same, moved.elim id ?_⟩
  rintro ⟨-, rfl, rfl⟩
  exact abreast

section

include grammar

/-- An operand behind `await`. -/
theorem reach_awaiting (abreast : Abreast passage cursor cursor') (keyword keyword' : Token)
    (given : (Parser.expr fuel position >>= fun operand =>
      pure (Expr.awaiting keyword operand)) cursor = some (answer, next))
    (whole : Whole answer.tokens) (reaches : passage.stop.left ≤ next.left)
    (settles : passage.Settles next ∨ answer.takesOperator = false) :
    ∃ answer' next', (Parser.expr fuel position >>= fun operand =>
        pure (Expr.awaiting keyword' operand)) cursor' = some (answer', next') ∧
      answer.Same answer' ∧ Abreast passage next next' := by
  refine reach_marked abreast (fun _ _ same => ⟨.awaiting .., same.operators⟩) given ?_
  rintro operand readOperand rfl
  exact grammar.expr position (.later abreast) readOperand
    (fun token member => whole token (by simp [Expr.tokens, member])) reaches
    (settles.imp_right fun none => by simpa [Expr.takesOperator] using none)

/-- An operand behind a prefix operator. -/
theorem reach_prefixed (abreast : Abreast passage cursor cursor') (operator operator' : Token)
    (given : (Parser.unary fuel position >>= fun operand =>
      pure (Expr.prefixed operator operand)) cursor = some (answer, next))
    (whole : Whole answer.tokens) (reaches : passage.stop.left ≤ next.left)
    (settles : passage.Settles next ∨ answer.takesOperator = false) :
    ∃ answer' next', (Parser.unary fuel position >>= fun operand =>
        pure (Expr.prefixed operator' operand)) cursor' = some (answer', next') ∧
      answer.Same answer' ∧ Abreast passage next next' := by
  refine reach_marked abreast (fun _ _ _ => ⟨.prefixed .., rfl⟩) given ?_
  rintro operand readOperand rfl
  exact grammar.unary position (.later abreast) readOperand
    (fun token member => whole token (by simp [Expr.tokens, member])) reaches
    (settles.imp_right fun none => by simpa [Expr.takesOperator] using none)

/-- A key path, whose root may be empty. -/
theorem reach_path (abreast : Abreast passage cursor cursor') (operator operator' : Token)
    (given : (Parser.primary fuel position >>= fun root =>
      Parser.suffixes fuel position root >>= fun operand =>
        pure (Expr.prefixed operator operand)) cursor = some (answer, next))
    (whole : Whole answer.tokens) (reaches : passage.stop.left ≤ next.left) :
    ∃ answer' next', (Parser.primary fuel position >>= fun root =>
        Parser.suffixes fuel position root >>= fun operand =>
          pure (Expr.prefixed operator' operand)) cursor' = some (answer', next') ∧
      answer.Same answer' ∧ Abreast passage next next' := by
  obtain ⟨root, middle, readRoot, given⟩ := bind_eq_some given
  obtain ⟨operand, last, readOperand, given⟩ := bind_eq_some given
  obtain ⟨rfl, rfl⟩ := pure_eq_some given
  have wholeOperand : Whole operand.tokens := fun token member =>
    whole token (by simp [Expr.tokens, member])
  obtain ⟨root', middle', readRoot', sameRoot, movedRoot⟩ := grammar.primary position
    (.later abreast) readRoot (wholeRoot readOperand wholeOperand)
    (Nat.le_trans reaches (left_le readOperand))
  obtain ⟨operand', last', readOperand', -, abreast'⟩ := grammar.suffixes position
    (movedRoot.elim id (by rintro ⟨-, rfl, rfl⟩; exact abreast)) sameRoot readOperand wholeOperand
    reaches
  rw [bind_apply readRoot', bind_apply readOperand']
  exact ⟨_, _, rfl, ⟨.prefixed .., rfl⟩, abreast'⟩

/-- An operand without marks, with its suffixes. -/
theorem reach_suffixed (level : Level passage cursor cursor')
    (given : (Parser.primary fuel position >>= fun root =>
      if root.isEmpty then pure root else Parser.suffixes fuel position root) cursor =
      some (answer, next))
    (whole : Whole answer.tokens) (reaches : passage.stop.left ≤ next.left) :
    ∃ answer' next', (Parser.primary fuel position >>= fun root =>
        if root.isEmpty then pure root else Parser.suffixes fuel position root) cursor' =
      some (answer', next') ∧ answer.Same answer' ∧
      (Abreast passage next next' ∨ answer.isEmpty = true ∧ next = cursor ∧ next' = cursor') := by
  obtain ⟨root, middle, readRoot, given⟩ := bind_eq_some given
  split at given
  · next none =>
    obtain ⟨rfl, rfl⟩ := pure_eq_some given
    obtain ⟨root', middle', readRoot', sameRoot, movedRoot⟩ := grammar.primary position level readRoot
      whole reaches
    rw [bind_apply readRoot', ← sameRoot.isEmpty, if_pos none]
    exact ⟨_, _, rfl, sameRoot, movedRoot⟩
  · next some =>
    obtain ⟨root', middle', readRoot', sameRoot, movedRoot⟩ := grammar.primary position level readRoot
      (wholeRoot given whole) (Nat.le_trans reaches (left_le given))
    rw [bind_apply readRoot', ← sameRoot.isEmpty, if_neg some]
    obtain ⟨answer', next', given', same, abreast'⟩ := grammar.suffixes position
      (movedRoot.resolve_right fun none => some none.1) sameRoot given whole reaches
    exact ⟨answer', next', given', same, .inl abreast'⟩

theorem expr_succ {answer : Expr} (position : Position) (level : Level passage cursor cursor')
    (given : Parser.expr (fuel + 1) position cursor = some (answer, next))
    (whole : Whole answer.tokens) (reaches : passage.stop.left ≤ next.left)
    (settles : passage.Settles next ∨ answer.isEmpty = true) :
    ∃ answer' next', Parser.expr (fuel + 1) position cursor' = some (answer', next') ∧
      answer.Same answer' ∧
      (Abreast passage next next' ∨ answer.isEmpty = true ∧ next = cursor ∧ next' = cursor') := by
  rw [Parser.expr] at given ⊢
  obtain ⟨first, second, readFirst, given⟩ := bind_eq_some given
  split at given
  · next none =>
    obtain ⟨rfl, rfl⟩ := pure_eq_some given
    obtain ⟨first', second', readFirst', same, moved⟩ := grammar.unary position level readFirst whole
      reaches (settles.imp_right fun _ => Expr.takesOperator_of_isEmpty none)
    rw [bind_apply readFirst', ← same.isEmpty, if_pos none]
    exact ⟨_, _, rfl, same, moved⟩
  · next some =>
    obtain ⟨rest, last, readRest, given⟩ := bind_eq_some given
    obtain ⟨isAnswer, rfl⟩ := pure_eq_some given
    have passes := (allForward fuel).terms position 0 _ _ _ readRest
    have wholeParts : Whole (first.tokens ++ tokensOfTerms rest) := by
      rw [← Expr.tokens_ofTerms, ← isAnswer]
      exact whole
    rw [Whole, List.forall_mem_append] at wholeParts
    -- With a first operand the answer is not empty, so it has settled where it ends, and so have
    -- its parts before.
    have notEmpty : answer.isEmpty = false := by
      rw [isAnswer]
      cases rest with
      | nil => exact Bool.eq_false_iff.2 some
      | cons term later => rfl
    replace settles := settles.resolve_right (by simp [notEmpty])
    obtain ⟨first', second', readFirst', same, moved⟩ := grammar.unary position level readFirst
      wholeParts.1 (Nat.le_trans reaches passes.suffix.length_le) (.inl (settles.back passes))
    obtain ⟨rest', last', readRest', texts, abreast'⟩ := grammar.terms position 0
      (moved.resolve_right fun none => some none.1) readRest wholeParts.2 reaches settles
    rw [bind_apply readFirst', ← same.isEmpty, if_neg some, bind_apply readRest']
    have sameEmpty : rest.isEmpty = rest'.isEmpty := by
      rw [← List.isEmpty_map (f := fun term : OperatorTerm => term.operator.text), texts,
        List.isEmpty_map]
    refine ⟨_, _, rfl, ?_, .inl abreast'⟩
    rw [isAnswer]
    exact same.ofTerms sameEmpty texts

end

include ends grammar

/-- An operand behind `try`. -/
theorem reach_trying (abreast : Abreast passage cursor cursor') (keyword keyword' : Token)
    (given : (optionalMark >>= fun mark => Parser.expr fuel position >>= fun operand =>
      pure (Expr.trying keyword mark operand)) cursor = some (answer, next))
    (whole : Whole answer.tokens) (reaches : passage.stop.left ≤ next.left)
    (settles : passage.Settles next ∨ answer.takesOperator = false) :
    ∃ answer' next', (optionalMark >>= fun mark => Parser.expr fuel position >>= fun operand =>
        pure (Expr.trying keyword' mark operand)) cursor' = some (answer', next') ∧
      answer.Same answer' ∧ Abreast passage next next' := by
  obtain ⟨mark, second, readMark, given⟩ := bind_eq_some given
  obtain ⟨mark', second', readMark', -, abreast'⟩ := reach_optionalMark abreast ends readMark
  rw [bind_apply readMark']
  refine reach_marked abreast' (fun _ _ same => ⟨.trying .., same.operators⟩) given ?_
  rintro operand readOperand rfl
  exact grammar.expr position (.later abreast') readOperand
    (fun token member => whole token (by simp [Expr.tokens, member])) reaches
    (settles.imp_right fun none => by simpa [Expr.takesOperator] using none)

theorem unary_succ (position : Position) (level : Level passage cursor cursor')
    (given : Parser.unary (fuel + 1) position cursor = some (answer, next))
    (whole : Whole answer.tokens) (reaches : passage.stop.left ≤ next.left)
    (settles : passage.Settles next ∨ answer.takesOperator = false) :
    ∃ answer' next', Parser.unary (fuel + 1) position cursor' = some (answer', next') ∧
      answer.Same answer' ∧
      (Abreast passage next next' ∨ answer.isEmpty = true ∧ next = cursor ∧ next' = cursor') := by
  have word {keyword : String} (here : cursor.atKeyword keyword = true) :
      Abreast passage cursor.bump.2 cursor'.bump.2 :=
    (level.bump (level.inside_of_atKeyword ends here)).2
  -- With a mark in front the operand is not empty, so the streams have moved on.
  have marked {result : Option (Expr × Cursor)}
      (found : ∃ answer' next', result = some (answer', next') ∧ answer.Same answer' ∧
        Abreast passage next next') :
      ∃ answer' next', result = some (answer', next') ∧ answer.Same answer' ∧
        (Abreast passage next next' ∨ answer.isEmpty = true ∧ next = cursor ∧ next' = cursor') :=
    found.imp fun _ => .imp fun _ => .imp_right (.imp_right .inl)
  rw [Parser.unary, get_bind] at given
  rw [Parser.unary, get_bind, ← level.atKeyword_eq ends, ← level.atKeyword_eq ends,
    ← level.atOperator_eq ends (by decide), ← level.isAt_eq ends _ (by decide)]
  split at given
  · next isTry =>
    rw [if_pos isTry]
    rw [bump_bind] at given ⊢
    exact marked (grammar.reach_trying ends (word isTry) _ _ given whole reaches settles)
  next notTry =>
  rw [if_neg notTry]
  split at given
  · next isAwait =>
    rw [if_pos isAwait]
    rw [bump_bind] at given ⊢
    exact marked (grammar.reach_awaiting (word isAwait) _ _ given whole reaches settles)
  next notAwait =>
  rw [if_neg notAwait]
  split at given
  · next isPrefix =>
    rw [if_pos isPrefix]
    rw [Cursor.atOperator, Bool.and_eq_true] at isPrefix
    obtain ⟨-, abreast⟩ := level.bump (level.inside_of_isAt ends isPrefix.1 (by decide))
    rw [bump_bind] at given ⊢
    exact marked (grammar.reach_prefixed abreast _ _ given whole reaches settles)
  next notPrefix =>
  rw [if_neg notPrefix]
  split at given
  · next isPath =>
    rw [if_pos isPath]
    obtain ⟨-, abreast⟩ := level.bump (level.inside_of_isAt ends isPath (by decide))
    rw [bump_bind] at given ⊢
    exact marked (grammar.reach_path abreast _ _ given whole reaches)
  next notPath =>
  rw [if_neg notPath]
  exact grammar.reach_suffixed level given whole reaches

/-- What stands behind an operator is read in both streams. -/
theorem reach_operand {operator operator' : Token} {answer : Expr} (position : Position)
    (like : operator.Like operator') (abreast : Abreast passage cursor cursor')
    (given : operand fuel position operator cursor = some (answer, next))
    (whole : Whole answer.tokens) (reaches : passage.stop.left ≤ next.left)
    (settles : passage.Settles next ∨ answer.takesOperator = false) :
    ∃ answer' next', operand fuel position operator' cursor' = some (answer', next') ∧
      Abreast passage next next' := by
  have cast : isCast operator = isCast operator' := by
    rw [isCast, isCast, like.kind, like.text]
  rw [operand] at given ⊢
  rw [← cast]
  split at given
  · next isType =>
    rw [if_pos isType]
    obtain ⟨tokens, readTokens, -⟩ := map_eq_some given
    obtain ⟨rfl, rfl⟩ := Prod.mk.inj (Option.some.inj readTokens)
    exact reach_castRun abreast ends reaches
  · next isOperand =>
    rw [if_neg isOperand]
    obtain ⟨answer', next', read', -, moved⟩ := grammar.unary position (.later abreast) given whole
      reaches settles
    exact ⟨answer', next', read', moved.elim id (by rintro ⟨-, rfl, rfl⟩; exact abreast)⟩

theorem terms_succ {answer : List OperatorTerm} (position : Position) (ternaries : Nat)
    (abreast : Abreast passage cursor cursor')
    (given : Parser.terms (fuel + 1) position ternaries cursor = some (answer, next))
    (whole : Whole (tokensOfTerms answer)) (reaches : passage.stop.left ≤ next.left)
    (settles : passage.Settles next) :
    ∃ answer' next', Parser.terms (fuel + 1) position ternaries cursor' = some (answer', next') ∧
      (answer.map fun term => term.operator.text) = (answer'.map fun term => term.operator.text) ∧
      Abreast passage next next' := by
  have passes := (allForward (fuel + 1)).terms position ternaries _ _ _ given
  cases answer with
  | nil =>
    obtain ⟨operator', next', read', alike, abreast'⟩ := reach_binaryOperator abreast ends
      (terms_nil_iff.1 given) fun _ => settles.back passes
    cases alike
    exact ⟨[], next', terms_nil_iff.2 read', rfl, abreast'⟩
  | cons term later =>
    obtain ⟨second, third, readOperator, readOperand, readLater⟩ := terms_cons_iff.1 given
    obtain ⟨operator', second', readOperator', alike, abreast'⟩ := reach_binaryOperator abreast ends
      readOperator fun _ => settles.back passes
    obtain ⟨like⟩ := alike
    rw [tokensOfTerms, List.cons_append, Whole, List.forall_mem_cons, List.forall_mem_append]
      at whole
    obtain ⟨-, wholeOperand, wholeLater⟩ := whole
    have onward := (allForward fuel).terms position _ _ _ _ readLater
    obtain ⟨operand', third', readOperand', abreast''⟩ := grammar.reach_operand ends position like
      abreast' readOperand wholeOperand (Nat.le_trans reaches onward.suffix.length_le)
      (.inl (settles.back onward))
    obtain ⟨later', next', readLater', same, last⟩ := grammar.terms position _ abreast'' readLater
      wholeLater reaches settles
    refine ⟨⟨_, operand'⟩ :: later', next', terms_cons_iff.2 ⟨second', third', readOperator',
      readOperand', ternariesAfter_eq like ternaries ▸ readLater'⟩, ?_, last⟩
    simp only [List.map_cons, like.text, same]

end Operands

theorem zero : AllReach passage 0 where
  expr := fun _ _ given => nomatch given
  terms := fun _ _ _ given => nomatch given
  unary := fun _ _ given => nomatch given
  primary := fun _ _ given => nomatch given
  suffixes := fun _ _ _ given => nomatch given
  argumentList := fun _ _ _ _ given => nomatch given
  collection := fun _ _ given => nomatch given
  closure := fun _ _ _ given => nomatch given

include ends grammar in
theorem succ : AllReach passage (fuel + 1) where
  expr := expr_succ grammar
  terms := terms_succ ends grammar
  unary := unary_succ ends grammar
  primary := primary_succ ends grammar
  suffixes := suffixes_succ ends grammar
  argumentList := argumentList_succ ends
  collection := collection_succ ends
  closure := closure_succ ends

end AllReach

/-- The functions that read an operand come to the end of the way in both streams, with every amount
of fuel. -/
theorem allReach (ends : passage.Ends) (fuel : Nat) : AllReach passage fuel := by
  induction fuel with
  | zero => exact .zero
  | succ fuel ih => exact .succ ends ih

end Parser

end SuiteMigration
