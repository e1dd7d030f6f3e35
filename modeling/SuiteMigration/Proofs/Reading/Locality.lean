import Mathlib.Tactic.Common
import SuiteMigration.Proofs.Reading.Lockstep

/-!
# Questions at the end of the way

Up to the end of the way the questions of the parser have the same answers in both streams. Delimiters
on the way have what is between them read in lockstep. An operator that comes behind the way in the
second stream is no operator for what ends before it.

## Main definitions

* `Whole` - no token is missing
* `Expr.Same` - like expressions with the same operators at the top

## Main results

* `Parser.closedBy` - what stands before a closing delimiter on the way is read in both streams
* `Parser.reach_binaryOperator`, `Parser.reach_castRun` - so are operators and the types of casts
-/

namespace SuiteMigration

variable {passage : Passage} {cursor cursor' next : Cursor}

/-- No token is missing. -/
abbrev Whole (tokens : List Token) : Prop :=
  ∀ token ∈ tokens, token.text ≠ ""

/-- The operators at the top of an expression, behind its marks. -/
def Expr.operators : Expr → List String
  | .sequence _ operators => operators.map Token.text
  | .trying _ _ operand => operand.operators
  | .awaiting _ operand => operand.operators
  | _ => []

/-- An operator behind the expression becomes part of it, because it ends in a marked operand. -/
def Expr.takesOperator : Expr → Bool
  | .trying _ _ operand => !operand.isEmpty
  | .awaiting _ operand => !operand.isEmpty
  | .prefixed _ operand => operand.takesOperator
  | _ => false

/-- An expression that is missing takes no operator behind it. -/
theorem Expr.takesOperator_of_isEmpty {expr : Expr} (none : expr.isEmpty = true) :
    expr.takesOperator = false := by
  unfold isEmpty at none
  split at none
  · rfl
  · cases none

/-- Like expressions with the same operators at the top. -/
structure Expr.Same (expr expr' : Expr) : Prop extends expr.Like expr' where
  operators : expr.operators = expr'.operators

/-- Terms put behind a first operand bring their own operators. -/
theorem Expr.operators_ofTerms (first : Expr) {rest : List OperatorTerm} (some : rest ≠ []) :
    (Expr.ofTerms first rest).operators = rest.map fun term => term.operator.text := by
  cases rest with
  | nil => exact absurd rfl some
  | cons term later => simp [ofTerms, operators]

/-- Like expressions stay alike with like terms behind them. -/
theorem Expr.Same.ofTerms {base base' : Expr} (same : base.Same base')
    {rest rest' : List OperatorTerm} (sameEmpty : rest.isEmpty = rest'.isEmpty)
    (texts : (rest.map fun term => term.operator.text) = rest'.map fun term => term.operator.text) :
    (Expr.ofTerms base rest).Same (.ofTerms base' rest') := by
  refine ⟨same.toLike.ofTerms rest rest' sameEmpty, ?_⟩
  cases rest <;> cases rest' <;> try cases sameEmpty
  · exact same.operators
  · rw [operators_ofTerms _ (by simp), operators_ofTerms _ (by simp), texts]

/-- Like expressions stay alike with a closure behind each. -/
theorem Expr.Same.withClosure {base base' : Expr} (same : base.Same base')
    (accepts : base.acceptsClosure = true) (closure closure' : Closure) :
    (base.withClosure closure).Same (base'.withClosure closure') := by
  have none {base : Expr} (closure : Closure) : (base.withClosure closure).operators = [] := by
    cases base <;> rfl
  exact ⟨same.toLike.withClosure accepts closure closure', (none closure).trans (none closure').symm⟩

theorem Expr.Same.refl (expr : Expr) : expr.Same expr :=
  ⟨.refl expr, rfl⟩

namespace Passage

/-- No operator comes behind the way. -/
def Quiet (passage : Passage) : Prop :=
  passage.stop'.isAt .operator = false

/-- What is read ends before the way does, or no operator comes behind it. -/
def Settles (passage : Passage) (cursor : Cursor) : Prop :=
  passage.Inside cursor ∨ passage.Quiet

/-- What is settled behind a step was settled before it. -/
theorem Settles.back (settles : passage.Settles next) (passes : cursor.Passes next) :
    passage.Settles cursor :=
  settles.imp_left fun inside => Nat.lt_of_lt_of_le inside passes.suffix.length_le

end Passage

/-! ### Questions up to the end of the way -/

namespace Level

variable (level : Level passage cursor cursor') (ends : passage.Ends)

include level ends

/-- What is not a comma or a closing parenthesis is on the way. -/
theorem inside_of_isAt {kind : TokenKind} (here : cursor.isAt kind = true)
    (other : kind ∉ [TokenKind.comma, .rightParen]) : passage.Inside cursor := by
  simp only [List.mem_cons, List.not_mem_nil, or_false, not_or] at other
  by_contra outside
  rcases level.cases with ⟨_, _, _, _, inside, -⟩ | ⟨-, abreast⟩
  · exact outside inside
  · rw [Cursor.isAt, (abreast.peek_stop outside).1] at here
    exact Bool.noConfusion (here.symm.trans (ends.kind_ne _ other.1 other.2))

theorem inside_of_atKeyword {keyword : String} (here : cursor.atKeyword keyword = true) :
    passage.Inside cursor := by
  rw [Cursor.atKeyword, Token.isKeyword, Bool.and_eq_true] at here
  exact level.inside_of_isAt ends here.1 (by decide)

/-- Both readings stand at a member, or neither does. -/
theorem atMember_eq : cursor.atMember = cursor'.atMember := by
  rw [Cursor.atMember, Cursor.atMember, ← level.isAt_eq ends _ (by decide)]
  cases here : cursor.isAt .period with
  | false => rfl
  | true =>
    have inside := level.inside_of_isAt ends here (by decide)
    rw [Bool.true_and, Bool.true_and]
    refine level.test_second inside (fun token =>
      [TokenKind.identifier, .number, .poundIdentifier].contains token.kind)
      (fun _ _ like => by rw [like.kind]) ?_ ?_
    · rcases ends.kind with kind | kind <;> simp [kind]
    · rcases ends.kind' with kind | kind | kind <;> simp [kind]

end Level

namespace Abreast

variable (abreast : Abreast passage cursor cursor') (ends : passage.Ends)

include abreast ends

/-- A delimiter opens a part of the operand in both streams or in neither. -/
theorem opens_eq (kind : TokenKind)
    (other : kind ∉ [TokenKind.comma, .rightParen, .endOfFile, .operator]) :
    (cursor.isAt kind && !cursor.atNewLine) = (cursor'.isAt kind && !cursor'.atNewLine) := by
  have level := Level.later abreast
  rw [← level.isAt_eq ends kind other]
  cases here : cursor.isAt kind with
  | false => rfl
  | true =>
    have inside := level.inside_of_isAt ends here (by simp_all)
    rw [abreast.atNewLine_eq inside]

/-- Both readings stand at a closure that may follow, or neither does. -/
theorem opensClosure_eq (free accepts : Bool) :
    (cursor.isAt .leftBrace && free && !cursor.atNewLine && accepts) =
      (cursor'.isAt .leftBrace && free && !cursor'.atNewLine && accepts) := by
  have same := abreast.opens_eq ends .leftBrace (by decide)
  cases free <;> cases accepts <;> simp [same]

/-- Both readings stand at an optional mark, or neither does. -/
theorem optionalMark_eq : (cursor.peek.isOptionalMark && cursor.atAdjacent) =
    (cursor'.peek.isOptionalMark && cursor'.atAdjacent) := by
  have other {token : Token} (kind : token.kind ≠ .operator) : token.isOptionalMark = false := by
    simp [Token.isOptionalMark, Token.isOperator, kind]
  by_cases inside : passage.Inside cursor
  · rw [(abreast.peek_like inside).isOptionalMark, abreast.atAdjacent_eq inside]
  · rcases abreast.cases with ⟨_, _, _, _, here, -⟩ | ⟨-, -, last, last', -, previous', parts⟩
    · exact absurd here inside
    obtain ⟨isStop, isStop'⟩ := abreast.peek_stop inside
    rw [isStop, isStop', other (by rcases ends.kind with kind | kind <;> rw [kind] <;> decide),
      Bool.false_and]
    cases operator : passage.stop'.isAt .operator with
    | true => rw [Cursor.atAdjacent, previous', isStop', parts.apart operator, Bool.and_false]
    | false =>
      rw [Cursor.isAt, beq_eq_false_iff_ne] at operator
      rw [other operator, Bool.false_and]

end Abreast

namespace Parser

variable {α β : Type} {p p' : Parser α} {f : α → Parser β}

/-! ### Taking a computation apart -/

/-- A token that is not missing has been read. -/
theorem expect_eq_some {kind : TokenKind} {token : Token}
    (given : expect kind cursor = some (token, next)) (word : token.text ≠ "") :
    cursor.isAt kind = true ∧ next = cursor.bump.2 := by
  obtain ⟨found, middle, read, rest⟩ := bind_eq_some given
  obtain ⟨rfl, rfl⟩ := pure_eq_some rest
  cases here : cursor.isAt kind with
  | true =>
    rw [bumpIf_of here] at read
    obtain ⟨rfl, rfl⟩ := Prod.mk.inj (Option.some.inj read)
    exact ⟨rfl, rfl⟩
  | false =>
    rw [bumpIf_of_not here] at read
    obtain ⟨rfl, rfl⟩ := Prod.mk.inj (Option.some.inj read)
    exact absurd rfl word

section Terms

variable {fuel ternaries : Nat} {position : Position} {term : OperatorTerm} {later : List OperatorTerm}

/-- What stands behind an operator: a type, if it casts, or another operand. -/
def operand (fuel : Nat) (position : Position) (operator : Token) : Parser Expr :=
  if isCast operator then .raw <$> run Cursor.castRun else Parser.unary fuel position

/-- An operator that is read has its operand behind it, and then the others. -/
theorem terms_apply (cursor : Cursor) : Parser.terms (fuel + 1) position ternaries cursor =
    (binaryOperator? ternaries >>= fun operator? => match operator? with
      | none => pure []
      | some operator => operand fuel position operator >>= fun operand =>
          Parser.terms fuel position (ternariesAfter ternaries operator) >>= fun later =>
            pure ({ operator, operand } :: later)) cursor := by
  rw [Parser.terms]
  refine congrFun (congrArg (binaryOperator? ternaries >>= ·) (funext fun operator? => ?_)) cursor
  cases operator? with
  | none => rfl
  | some operator =>
    simp only [operand]
    split <;> rfl

theorem terms_nil_iff : Parser.terms (fuel + 1) position ternaries cursor = some ([], next) ↔
    binaryOperator? ternaries cursor = some (none, next) := by
  rw [terms_apply]
  constructor
  · intro given
    obtain ⟨operator, middle, readOperator, given⟩ := bind_eq_some given
    cases operator with
    | none => exact (pure_eq_some given).2 ▸ readOperator
    | some operator =>
      obtain ⟨operand, _, -, given⟩ := bind_eq_some given
      obtain ⟨later, _, -, given⟩ := bind_eq_some given
      cases (pure_eq_some given).1
  · intro read
    rw [bind_apply read]
    rfl

/-- The first one of some operators, what stands behind it, and the others. -/
theorem terms_cons_iff :
    Parser.terms (fuel + 1) position ternaries cursor = some (term :: later, next) ↔
      ∃ second third, binaryOperator? ternaries cursor = some (some term.operator, second) ∧
        operand fuel position term.operator second = some (term.operand, third) ∧
        Parser.terms fuel position (ternariesAfter ternaries term.operator) third =
          some (later, next) := by
  rw [terms_apply]
  constructor
  · intro given
    obtain ⟨operator, second, readOperator, given⟩ := bind_eq_some given
    cases operator with
    | none => cases (pure_eq_some given).1
    | some operator =>
      obtain ⟨operand, third, readOperand, given⟩ := bind_eq_some given
      obtain ⟨later, last, readLater, given⟩ := bind_eq_some given
      obtain ⟨same, rfl⟩ := pure_eq_some given
      obtain ⟨rfl, rfl⟩ := List.cons.inj same
      exact ⟨second, third, readOperator, readOperand, readLater⟩
  · rintro ⟨second, third, readOperator, readOperand, readLater⟩
    rw [bind_apply readOperator]
    exact (bind_apply readOperand).trans (bind_apply readLater)

end Terms

/-! ### What is between delimiters -/

/-- A computation that ends before a closing delimiter is mirrored wherever it starts. -/
theorem Mirrors.everywhere {like : α → α → Prop} (mirrors : Mirrors passage p p' like)
    (abreast : Abreast passage cursor cursor') : MirrorsAt passage cursor cursor' p p' like :=
  fun answer next read braced => mirrors.mirrorsAt abreast
    (braced.back (mirrors.forward cursor answer next read)) answer next read braced

/-- What is read before a closing delimiter of the way is read in both streams, with the delimiter. -/
theorem closedBy (ends : passage.Ends) {closer : TokenKind} {answer : α} {last : Cursor} {token : Token}
    {like : α → α → Prop} (closing : closer.isClosing = true)
    (first : MirrorsAt passage cursor cursor' p p' like) (read : p cursor = some (answer, next))
    (closed : expect closer next = some (token, last)) (word : token.text ≠ "")
    (reaches : passage.stop.left ≤ last.left) :
    ∃ answer' next' token' last', p' cursor' = some (answer', next') ∧ like answer answer' ∧
      expect closer next' = some (token', last') ∧ Abreast passage last last' := by
  obtain ⟨here, rfl⟩ := expect_eq_some closed word
  have braced : passage.Braced next := by
    cases pending : next.pending with
    | nil =>
      have rest := List.length_pos_iff.2 ends.rest
      have none : next.bump.2.left = 0 := by rw [Cursor.bump, pending, Cursor.left, pending]; rfl
      rw [none] at reaches
      exact absurd rest (Nat.not_lt_of_le reaches)
    | cons brace rest =>
      rw [Cursor.isAt, Cursor.peek, pending, List.headD_cons, beq_iff_eq] at here
      refine ⟨[], brace, rest, pending, here ▸ closing, ?_⟩
      rwa [Cursor.bump_of_pending pending] at reaches
  obtain ⟨answer', next', read', abreast, alike⟩ := first answer next read braced
  have like := abreast.peek_like braced.inside
  have here' : next'.isAt closer = true := by
    rw [Cursor.isAt] at here ⊢
    rwa [← like.kind]
  refine ⟨answer', next', next'.bump.1, next'.bump.2, read', alike, ?_, (abreast.bump braced.inside).2⟩
  exact (bind_apply (bumpIf_of here')).trans rfl

/-! ### Operators and marks -/

section

variable (abreast : Abreast passage cursor cursor') (ends : passage.Ends)

include abreast

/-- A token is read in both streams, if the question allows it on the way only. -/
theorem reach_bumpIf {condition : Cursor → Bool} {token : Option Token}
    (same : condition cursor = condition cursor')
    (inside : condition cursor = true → passage.Inside cursor)
    (given : bumpIf condition cursor = some (token, next)) :
    ∃ token' next', bumpIf condition cursor' = some (token', next') ∧
      Token.Alike token token' ∧ Abreast passage next next' := by
  cases here : condition cursor with
  | false =>
    rw [bumpIf_of_not here] at given
    obtain ⟨rfl, rfl⟩ := Prod.mk.inj (Option.some.inj given)
    exact ⟨none, cursor', bumpIf_of_not (same.symm.trans here), .none, abreast⟩
  | true =>
    rw [bumpIf_of here] at given
    obtain ⟨rfl, rfl⟩ := Prod.mk.inj (Option.some.inj given)
    obtain ⟨like, next⟩ := abreast.bump (inside here)
    exact ⟨_, _, bumpIf_of (same.symm.trans here), .some like, next⟩

include ends

/-- An optional mark is read alike, and the readings stay abreast. -/
theorem reach_optionalMark {mark : Option Token}
    (given : optionalMark cursor = some (mark, next)) :
    ∃ mark' next', optionalMark cursor' = some (mark', next') ∧ Token.Alike mark mark' ∧
      Abreast passage next next' := by
  refine reach_bumpIf abreast (abreast.optionalMark_eq ends) (fun here => ?_) given
  suffices operator : cursor.isAt .operator = true from
    (Level.later abreast).inside_of_isAt ends operator (by decide)
  rw [Bool.and_eq_true, Token.isOptionalMark, Token.isOperator, Token.isOperator] at here
  rw [Cursor.isAt]
  cases kind : cursor.peek.kind == .operator with
  | true => rfl
  | false =>
    rw [kind, Bool.false_and, Bool.false_and] at here
    exact absurd here.1 Bool.false_ne_true

/-- A cast operator inside the passage is read alike, and the readings stay abreast. -/
theorem reach_castOperator {operator : Token} (inside : passage.Inside cursor)
    (given : castOperator cursor = some (operator, next)) :
    ∃ operator' next', castOperator cursor' = some (operator', next') ∧
      operator.Like operator' ∧ Abreast passage next next' := by
  obtain ⟨like, second⟩ := abreast.bump inside
  rw [castOperator, bump_bind] at given ⊢
  rw [← like.text]
  split at given
  · next isAs =>
    rw [if_pos isAs]
    obtain ⟨mark, last, readMark, given⟩ := bind_eq_some given
    obtain ⟨mark', last', readMark', alike, abreast'⟩ := reach_optionalMark second ends readMark
    rw [bind_apply readMark']
    cases alike with
    | none =>
      obtain ⟨rfl, rfl⟩ := pure_eq_some given
      exact ⟨_, _, rfl, like, abreast'⟩
    | some marks =>
      obtain ⟨rfl, rfl⟩ := pure_eq_some given
      exact ⟨_, _, rfl, ⟨like.kind, by simp only [marks.text, like.text]⟩, abreast'⟩
  · next other =>
    rw [if_neg other]
    obtain ⟨rfl, rfl⟩ := pure_eq_some given
    exact ⟨_, _, rfl, like, second⟩

theorem reach_binaryOperator {ternaries : Nat} {operator : Option Token}
    (given : binaryOperator? ternaries cursor = some (operator, next))
    (settles : operator = none → passage.Settles cursor) :
    ∃ operator' next', binaryOperator? ternaries cursor' = some (operator', next') ∧
      Token.Alike operator operator' ∧ Abreast passage next next' := by
  have level := Level.later abreast
  have colon := level.isAt_eq ends .colon (by decide)
  rw [binaryOperator?, get_bind] at given ⊢
  rw [← colon, ← level.atKeyword_eq ends, ← level.atKeyword_eq ends]
  by_cases inside : passage.Inside cursor
  · rw [← level.atOperator_eq_of_inside ends inside]
    split at given
    · next sign =>
      rw [if_pos sign]
      obtain ⟨token, read, rfl⟩ := map_eq_some given
      obtain ⟨rfl, rfl⟩ := Prod.mk.inj (Option.some.inj read)
      obtain ⟨like, next⟩ := abreast.bump inside
      exact ⟨_, _, rfl, .some like, next⟩
    next notSign =>
    rw [if_neg notSign]
    split at given
    · next word =>
      rw [if_pos word]
      obtain ⟨token, read, rfl⟩ := map_eq_some given
      obtain ⟨token', next', read', like, abreast'⟩ := reach_castOperator abreast ends inside read
      exact ⟨_, _, map_apply read', .some like, abreast'⟩
    · next notWord =>
      rw [if_neg notWord]
      obtain ⟨rfl, rfl⟩ := pure_eq_some given
      exact ⟨_, _, rfl, .none, abreast⟩
  · -- Behind the way there is no operator in the first stream. In the second there is none either,
    -- because the reading has settled.
    obtain ⟨isStop, isStop'⟩ := abreast.peek_stop inside
    have notAt (kind : TokenKind) (comma : kind ≠ .comma) (closer : kind ≠ .rightParen) :
        cursor.isAt kind = false := by
      rw [Cursor.isAt, isStop]
      exact ends.kind_ne _ comma closer
    have notWord (keyword : String) : cursor.atKeyword keyword = false := by
      have other := notAt .identifier TokenKind.noConfusion TokenKind.noConfusion
      rw [Cursor.isAt] at other
      rw [Cursor.atKeyword, Token.isKeyword, other, Bool.false_and]
    rw [Cursor.atOperator, notAt _ TokenKind.noConfusion TokenKind.noConfusion,
      notAt _ TokenKind.noConfusion TokenKind.noConfusion, notWord, notWord] at given
    obtain ⟨rfl, rfl⟩ := pure_eq_some given
    have quiet : cursor'.isAt .operator = false := by
      rw [Cursor.isAt, isStop']
      exact (settles rfl).resolve_left inside
    rw [Cursor.atOperator, quiet, notAt _ TokenKind.noConfusion TokenKind.noConfusion, notWord, notWord]
    exact ⟨_, _, rfl, .none, abreast⟩

end

/-- Like operators leave as many ternaries open. -/
theorem ternariesAfter_eq {operator operator' : Token} (like : operator.Like operator')
    (ternaries : Nat) : ternariesAfter ternaries operator = ternariesAfter ternaries operator' := by
  rw [ternariesAfter, ternariesAfter, like.isOperator, like.kind]

/-- The type of a cast is read in both streams, if it ends with the way at the latest. -/
theorem reach_castRun (abreast : Abreast passage cursor cursor') (ends : passage.Ends)
    (reaches : passage.stop.left ≤ (cursor.skip cursor.castRun).left) :
    ∃ answer' next', (.raw <$> run Cursor.castRun : Parser Expr) cursor' = some (answer', next') ∧
      Abreast passage (cursor.skip cursor.castRun) next' := by
  have within : cursor.castRun + passage.stop.left ≤ cursor.left := by
    have rest := List.length_pos_iff.2 ends.rest
    change _ ≤ (cursor.pending.drop _).length at reaches
    rw [List.length_drop] at reaches
    simp only [Cursor.left] at *
    omega
  refine ⟨_, _, rfl, ?_⟩
  show Abreast passage _ (cursor'.skip cursor'.castRun)
  rw [abreast.castRun_eq ends within]
  exact abreast.skip within

end Parser

end SuiteMigration
